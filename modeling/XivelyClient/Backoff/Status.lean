import XivelyClient.Datastructures.Vector
import XivelyClient.Mqtt.Logic.Layer

/-! The penalty of the backoff (`xi_backoff_status_api.c`): an index into two tables that can be replaced under it. A call that
follows a NULL pointer or reads outside of a table has no result. -/
namespace XivelyClient.Backoff

open Mqtt.Logic (BackoffClass backoffClassifyState)

/-- `xi_backoff_status_t`; of the handle of the next update only whether it is set. -/
structure Status where
  nextUpdate : Bool := false
  backoffLut : Option (XiVector UInt32) := none
  decayLut : Option (XiVector UInt32) := none
  backoffClass : BackoffClass := .none
  backoffLutI : Int := 0
  deriving DecidableEq, Repr

namespace Status

def at? (lut : Option (XiVector UInt32)) (index : Int) : Option UInt32 :=
  lut.bind fun vector => if 0 ≤ index then vector.array[index.toNat]? else none

/-- The event is restarted if there is one and made if there is none, for which memory may lack. -/
def restartUpdateTime (status : Status) (alloc : Bool) : Option Status :=
  (at? status.decayLut status.backoffLutI).map fun _ => {status with nextUpdate := status.nextUpdate || alloc}

/-- The index is computed as an `int` and stored in a byte. -/
def incremented (status : Status) : Option Status :=
  status.backoffLut.map fun lut => {status with backoffLutI := indexType (min (status.backoffLutI + 1) (lut.elemNo - 1))}

def incBackoffPenalty (status : Status) (alloc : Bool) : Option Status := status.incremented.bind (·.restartUpdateTime alloc)

def decBackoffPenalty (status : Status) : Status := {status with backoffLutI := max (status.backoffLutI - 1) 0}

/-- The numbers of the tables are taken for signed ones; a remainder by 0 has no result. -/
def getBackoffPenalty (status : Status) (random : UInt32) : Option UInt32 :=
  (at? status.backoffLut (max (status.backoffLutI - 1) 0)).bind fun prevBackoffBaseValue =>
    let fullRange : Int32 := if status.backoffLutI = 0 then 0 else prevBackoffBaseValue.toInt32
    (at? status.backoffLut status.backoffLutI).bind fun baseValue =>
      let halfRange := max (fullRange / 2) 1
      if fullRange + 1 = 0 then none
      else
        let randValue := (random % (fullRange + 1).toUInt32).toInt32
        let backoffValue := baseValue.toInt32 + randValue - halfRange
        (at? status.backoffLut 0).map fun first => (max backoffValue first.toInt32).toUInt32

def releaseLuts (status : Status) : Status := {status with backoffLut := none,decayLut := none}

/-- `xi_backoff_configure_using_data` with the rows of the two tables; the index stays. -/
def configureUsingData (status : Status) (rows : List (UInt32 × UInt32)) (memoryType : MemoryType) (allocBackoff allocDecay : Bool) :
    XiState × Status :=
  if rows = [] then (.invalidParameter,status)
  else
    let status := status.releaseLuts
    match (XiVector.createFrom (rows.map Prod.fst) memoryType allocBackoff).join with
    | none => (.outOfMemory,status)
    | some backoffLut =>
      match (XiVector.createFrom (rows.map Prod.snd) memoryType allocDecay).join with
      | none => (.outOfMemory,{status with backoffLut := some backoffLut})
      | some decayLut => (.ok,{status with backoffLut := some backoffLut,decayLut := some decayLut})

def updateBackoffPenalty (status : Status) (state : XiState) (alloc : Bool) : Option Status :=
  let status := {status with backoffClass := backoffClassifyState state}
  if status.backoffClass = .none then some status else status.incBackoffPenalty alloc

/-- The status once the cooldown event has lowered the index, if it does. -/
def cooled (status : Status) : Status :=
  if status.backoffClass = .none then decBackoffPenalty {status with nextUpdate := false} else {status with nextUpdate := false}

/-- `xi_apply_cooldown`, called by the dispatcher, which has taken the event out. -/
def applyCooldown (status : Status) (alloc : Bool) : Option Status :=
  if 0 < status.cooled.backoffLutI then status.cooled.restartUpdateTime alloc else some status.cooled

end Status

inductive Event
  | configure (rows : List (UInt32 × UInt32)) (memoryType : MemoryType) (allocBackoff allocDecay : Bool)
  | update (state : XiState) (alloc : Bool)
  | cooldown (alloc : Bool)
  | read (random : UInt32)

/-- The cooldown comes only when its event is scheduled. -/
def next (status : Status) : Event → Option Status
  | .configure rows memoryType allocBackoff allocDecay => some (status.configureUsingData rows memoryType allocBackoff allocDecay).2
  | .update state alloc => status.updateBackoffPenalty state alloc
  | .cooldown alloc => if status.nextUpdate then status.applyCooldown alloc else none
  | .read random => (status.getBackoffPenalty random).map fun _ => status

/-- The index is inside of both tables. -/
def InRange (status : Status) : Prop :=
  ∃ backoffLut decayLut, status.backoffLut = some backoffLut ∧ status.decayLut = some decayLut ∧ 0 ≤ status.backoffLutI ∧
    status.backoffLutI < backoffLut.array.length ∧ status.backoffLutI < decayLut.array.length

/-- Where a call looks up the index in a table, it is inside of both. -/
def UsedInRange (status : Status) : Event → Prop
  | .configure .. => True
  | .update state _ => backoffClassifyState state ≠ .none → ∃ status', status.incremented = some status' ∧ InRange status'
  | .cooldown _ => status.nextUpdate = true → 0 < status.cooled.backoffLutI → InRange status.cooled
  | .read _ => InRange status

/-- The tables have memory, their length is not lost in a byte, and they are longer than the index; the first use comes behind them. -/
def Fits (status : Status) : Event → Prop
  | .configure rows _ allocBackoff allocDecay => rows ≠ [] →
      allocBackoff = true ∧ allocDecay = true ∧ 1 ≤ rows.length % 256 ∧ rows.length % 256 ≤ 128 ∧ status.backoffLutI < rows.length
  | .update state _ => backoffClassifyState state ≠ .none → status.backoffLut ≠ none
  | .cooldown _ => True
  | .read _ => status.backoffLut ≠ none

/-- Both tables are installed with `n` rows, more than the index. -/
structure Installed (status : Status) (backoffLut decayLut : XiVector UInt32) (n : Nat) : Prop where
  backoff : status.backoffLut = some backoffLut
  decay : status.decayLut = some decayLut
  backoffLength : backoffLut.array.length = n
  decayLength : decayLut.array.length = n
  elemNo : backoffLut.elemNo = indexType n
  low : 1 ≤ n % 256
  high : n % 256 ≤ 128
  nonneg : 0 ≤ status.backoffLutI
  inside : status.backoffLutI < n

/-- There are tables with room for the index, or there have been none so far. -/
def Kept (status : Status) : Prop :=
  (∃ backoffLut decayLut n, Installed status backoffLut decayLut n) ∨
    (status.backoffLut = none ∧ status.nextUpdate = false ∧ status.backoffLutI = 0)

section Steps

variable {status status' : Status} {backoffLut decayLut : XiVector UInt32} {n : Nat} {event : Event}

theorem Installed.inRange (installed : Installed status backoffLut decayLut n) : InRange status :=
  ⟨backoffLut,decayLut,installed.backoff,installed.decay,installed.nonneg,installed.backoffLength ▸ installed.inside,
    installed.decayLength ▸ installed.inside⟩

/-- Another index below the length. -/
theorem Installed.move (installed : Installed status backoffLut decayLut n) (backoff : status'.backoffLut = status.backoffLut)
    (decay : status'.decayLut = status.decayLut) (nonneg : 0 ≤ status'.backoffLutI) (inside : status'.backoffLutI < n) :
    Installed status' backoffLut decayLut n :=
  {installed with backoff := backoff.trans installed.backoff,decay := decay.trans installed.decay,nonneg := nonneg,inside := inside}

theorem Installed.incremented (installed : Installed status backoffLut decayLut n) :
    ∃ status', status.incremented = some status' ∧ Installed status' backoffLut decayLut n := by
  have nonneg := installed.nonneg
  have low := installed.low
  have high := installed.high
  have moved : 0 ≤ indexType (min (status.backoffLutI + 1) (indexType n - 1)) ∧
      indexType (min (status.backoffLutI + 1) (indexType n - 1)) < n := by
    simp only [indexType]
    omega
  refine ⟨{status with backoffLutI := indexType (min (status.backoffLutI + 1) (indexType n - 1))},?_,
    installed.move rfl rfl moved.1 moved.2⟩
  rw [Status.incremented,installed.backoff,← installed.elemNo]
  rfl

theorem Installed.restarted (installed : Installed status backoffLut decayLut n) (alloc : Bool)
    (restarted : status.restartUpdateTime alloc = some status') : Installed status' backoffLut decayLut n := by
  obtain ⟨_,_,rfl⟩ := Option.map_eq_some_iff.mp restarted
  exact installed.move rfl rfl installed.nonneg installed.inside

theorem Installed.cooled (installed : Installed status backoffLut decayLut n) : Installed status.cooled backoffLut decayLut n := by
  have nonneg := installed.nonneg
  have inside := installed.inside
  unfold Status.cooled
  split
  · exact installed.move rfl rfl (by simp only [Status.decBackoffPenalty]; omega) (by simp only [Status.decBackoffPenalty]; omega)
  · exact installed.move rfl rfl nonneg inside

theorem configured {rows : List (UInt32 × UInt32)} {memoryType : MemoryType} (there : rows ≠ []) :
    status.configureUsingData rows memoryType true true = (.ok,{status with
      backoffLut := some ⟨rows.map Prod.fst,indexType rows.length,indexType rows.length,memoryType⟩
      decayLut := some ⟨rows.map Prod.snd,indexType rows.length,indexType rows.length,memoryType⟩}) := by
  have positive : 0 < rows.length := List.length_pos_iff.mpr there
  have created (column : List UInt32) (length : column.length = rows.length) :
      (XiVector.createFrom column memoryType true).join =
        some ⟨column,indexType rows.length,indexType rows.length,memoryType⟩ := by
    rw [XiVector.createFrom,length,if_pos positive]
    rfl
  rw [Status.configureUsingData,if_neg there]
  simp only [created _ (List.length_map Prod.fst),created _ (List.length_map Prod.snd)]
  rfl

theorem kept_configure {rows : List (UInt32 × UInt32)} {memoryType : MemoryType} {allocBackoff allocDecay : Bool} (kept : Kept status)
    (fits : Fits status (.configure rows memoryType allocBackoff allocDecay)) :
    Kept (status.configureUsingData rows memoryType allocBackoff allocDecay).2 := by
  by_cases empty : rows = []
  · rwa [Status.configureUsingData,if_pos empty]
  · obtain ⟨rfl,rfl,low,high,inside⟩ := fits empty
    have nonneg : 0 ≤ status.backoffLutI := by
      rcases kept with ⟨_,_,_,installed⟩ | ⟨_,_,zero⟩
      · exact installed.nonneg
      · exact zero.ge
    rw [configured empty]
    exact .inl ⟨_,_,rows.length,rfl,rfl,List.length_map _,List.length_map _,rfl,low,high,nonneg,inside⟩

theorem kept_update {state : XiState} {alloc : Bool} (kept : Kept status) (stepped : status.updateBackoffPenalty state alloc = some status') :
    Kept status' := by
  rw [Status.updateBackoffPenalty] at stepped
  simp only at stepped
  split at stepped
  · obtain rfl := Option.some.inj stepped
    rcases kept with ⟨backoffLut,decayLut,n,installed⟩ | fresh
    · exact .inl ⟨backoffLut,decayLut,n,installed.move rfl rfl installed.nonneg installed.inside⟩
    · exact .inr fresh
  · rcases kept with ⟨backoffLut,decayLut,n,installed⟩ | ⟨missing,_⟩
    · have classed : Installed {status with backoffClass := Mqtt.Logic.backoffClassifyState state} backoffLut decayLut n :=
        installed.move rfl rfl installed.nonneg installed.inside
      obtain ⟨middle,incremented,installed⟩ := classed.incremented
      rw [Status.incBackoffPenalty,incremented] at stepped
      exact .inl ⟨backoffLut,decayLut,n,installed.restarted alloc stepped⟩
    · rw [Status.incBackoffPenalty,Status.incremented,missing] at stepped
      contradiction

theorem kept_cooldown {alloc : Bool} (kept : Kept status) (scheduled : status.nextUpdate = true)
    (stepped : status.applyCooldown alloc = some status') : Kept status' := by
  rcases kept with ⟨backoffLut,decayLut,n,installed⟩ | ⟨_,unscheduled,_⟩
  · rw [Status.applyCooldown] at stepped
    split at stepped
    · exact .inl ⟨backoffLut,decayLut,n,installed.cooled.restarted alloc stepped⟩
    · obtain rfl := Option.some.inj stepped
      exact .inl ⟨backoffLut,decayLut,n,installed.cooled⟩
  · rw [unscheduled] at scheduled
    contradiction

theorem kept_next (kept : Kept status) (fits : Fits status event) (stepped : next status event = some status') : Kept status' := by
  cases event with
  | configure rows memoryType allocBackoff allocDecay => exact Option.some.inj stepped ▸ kept_configure kept fits
  | update state alloc => exact kept_update kept stepped
  | cooldown alloc =>
    rw [next] at stepped
    split at stepped
    · exact kept_cooldown kept ‹_› stepped
    · contradiction
  | read random =>
    obtain ⟨_,_,rfl⟩ := Option.map_eq_some_iff.mp stepped
    exact kept

theorem used_inRange (kept : Kept status) (fits : Fits status event) : UsedInRange status event := by
  rcases kept with ⟨backoffLut,decayLut,n,installed⟩ | ⟨missing,unscheduled,_⟩
  · cases event with
    | configure => trivial
    | update state alloc =>
      intro _
      obtain ⟨status',incremented,installed⟩ := installed.incremented
      exact ⟨status',incremented,installed.inRange⟩
    | cooldown alloc => exact fun _ _ => installed.cooled.inRange
    | read random => exact installed.inRange
  · cases event with
    | configure => trivial
    | update state alloc => exact fun counts => absurd missing (fits counts)
    | cooldown alloc =>
      intro scheduled
      rw [unscheduled] at scheduled
      contradiction
    | read random => exact absurd missing fits

end Steps

section Unfit

variable {status : Status} {rows : List (UInt32 × UInt32)} {memoryType : MemoryType} {allocBackoff allocDecay : Bool}

theorem unconfigured (there : rows ≠ []) (lacks : allocBackoff = false ∨ allocDecay = false) :
    (status.configureUsingData rows memoryType allocBackoff allocDecay).2.decayLut = none := by
  have missing (column : List UInt32) : (XiVector.createFrom column memoryType false).join = none := by
    unfold XiVector.createFrom
    split <;> rfl
  rw [Status.configureUsingData,if_neg there]
  simp only
  rcases lacks with rfl | rfl
  · rw [missing]
    rfl
  · rw [missing]
    split <;> rfl

/-- Tables that do not fit break the next use: a read, or an update for a recoverable state. -/
theorem unfit_configure (nonneg : 0 ≤ status.backoffLutI) (unfit : ¬Fits status (.configure rows memoryType allocBackoff allocDecay)) :
    ∃ event, ¬UsedInRange (status.configureUsingData rows memoryType allocBackoff allocDecay).2 event := by
  have there : rows ≠ [] := fun empty => unfit fun there => absurd empty there
  by_cases lacks : allocBackoff = false ∨ allocDecay = false
  · refine ⟨.read 0,?_⟩
    rintro ⟨_,decayLut,_,decay,_⟩
    rw [unconfigured there lacks] at decay
    contradiction
  · obtain ⟨rfl,rfl⟩ : allocBackoff = true ∧ allocDecay = true := by simpa using lacks
    rw [configured there]
    by_cases inside : status.backoffLutI < rows.length
    · refine ⟨.update .timeout true,fun used => ?_⟩
      obtain ⟨status',incremented,_,_,_,_,nonneg',_⟩ := used (by decide)
      obtain rfl := Option.some.inj incremented
      refine unfit fun _ => ⟨rfl,rfl,?_,?_,inside⟩
      all_goals
        simp only [indexType] at nonneg'
        omega
    · refine ⟨.read 0,?_⟩
      rintro ⟨backoffLut,_,backoff,_,_,inside',_⟩
      obtain rfl := Option.some.inj backoff
      rw [List.length_map] at inside'
      exact inside inside'

end Unfit

/-- In every run whose tables fit, the index is inside of the tables whenever it is used. -/
theorem each_usedInRange (events : List Event) (fits : Runs.Each next Fits {} events) : Runs.Each next UsedInRange {} events :=
  Runs.each_of_each (fun _ _ kept fits => used_inRange kept fits) (fun _ _ _ kept fits stepped => kept_next kept fits stepped)
    (.inr ⟨rfl,rfl,rfl⟩) fits

/-- Two tables, a timeout, and a penalty read at the second row. -/
theorem each_usedInRange_raised :
    Runs.Each next UsedInRange {} [.configure [(0,4),(2,4)] .unmanaged true true,.update .timeout true,.read 0] := by
  refine each_usedInRange _ ⟨fun _ => ⟨rfl,rfl,by decide,by decide,by decide⟩,fun status stepped => ?_⟩
  obtain rfl := Option.some.inj stepped
  refine ⟨fun _ => nofun,fun status stepped => ⟨?_,fun _ _ => trivial⟩⟩
  obtain rfl := Option.some.inj stepped
  exact nofun

/-- Two penalties, and then tables of one row. -/
def shortened : List Event := [
  .configure [(0,4),(2,4),(4,8)] .unmanaged true true,
  .update .timeout true,
  .update .timeout true,
  .configure [(0,4)] .unmanaged true true,
  .read 0]

theorem shortened_outOfRange : ¬Runs.Each next UsedInRange {} shortened := by
  intro each
  obtain ⟨_,each⟩ := each.2 _ rfl
  obtain ⟨_,each⟩ := each _ rfl
  obtain ⟨_,each⟩ := each _ rfl
  obtain ⟨⟨backoffLut,_,backoff,_,_,inside,_⟩,_⟩ := each _ rfl
  obtain rfl := Option.some.inj backoff
  exact absurd inside (by decide)

end XivelyClient.Backoff
