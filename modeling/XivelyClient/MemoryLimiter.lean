import Mathlib.Algebra.Order.BigOperators.Group.List
import Mathlib.Algebra.Order.Group.Nat
import Mathlib.Tactic.Common
import XivelyClient.Lib.Runs
import XivelyClient.State

/-! The memory limiter (`xi_memory_limiter.c`) in a build without extra debug info. Words of `size_t` have 64 bits. A write past
the end of a block, a failed assertion and an overflow of `int` have no result. -/
namespace XivelyClient

inductive AllocationType
  | application | system
  deriving DecidableEq, Repr

/-- A block of the platform, with the size that its header says. -/
structure MemoryBlock where
  address : Nat
  size : Nat
  bytes : Nat
  deriving DecidableEq, Repr

structure MemoryLimiter where
  applicationLimit : Nat
  totalLimit : Nat
  allocated : Nat := 0
  blocks : List MemoryBlock := []
  addresses : Nat := 0
  deriving DecidableEq, Repr

namespace MemoryLimiter

/-- `sizeof( xi_memory_limiter_entry_t )` -/
def entrySize : Nat := 8

def systemMemoryLimit : Nat := 2024

def applicationMemoryLimit : Nat := 524288

def sizeT (n : Nat) : Nat := n % 2 ^ 64

/-- A number of 64 bits as `long long`. -/
def longLong (n : Int) : Int := (n + 2 ^ 63) % 2 ^ 64 - 2 ^ 63

/-- The conversion of a `size_t` to `int`. -/
def toInt (n : Nat) : Int := ((n : Int) + 2 ^ 31) % 2 ^ 32 - 2 ^ 31

def initial : MemoryLimiter := {applicationLimit := applicationMemoryLimit,totalLimit := applicationMemoryLimit + systemMemoryLimit}

def limit (limiter : MemoryLimiter) : AllocationType → Nat
  | .application => limiter.applicationLimit
  | .system => limiter.totalLimit

def willAllocationFit (limiter : MemoryLimiter) (memoryType : AllocationType) (sizeToAlloc : Nat) : Bool :=
  sizeT (limiter.allocated + sizeToAlloc) ≤ limiter.limit memoryType

/-- What the platform has given. -/
def held (blocks : List MemoryBlock) : Nat := (blocks.map MemoryBlock.bytes).sum

/-- `__xi_alloc` beside the blocks that stay: they lie apart in less than `2 ^ 63` bytes of memory. -/
def platformGives (others : List MemoryBlock) (size : Nat) (granted : Bool) : Bool := granted && decide (held others + size < 2 ^ 63)

def setLimit (limiter : MemoryLimiter) (newMemoryLimit : UInt64) : XiState × MemoryLimiter :=
  if newMemoryLimit.toNat < sizeT (limiter.allocated + systemMemoryLimit) then (.outOfMemory,limiter)
  else (.ok,{limiter with
    totalLimit := newMemoryLimit.toNat
    applicationLimit := (newMemoryLimit - UInt64.ofNat systemMemoryLimit).toNat})

/-- The block is entered with its size in front. -/
def enter (limiter : MemoryLimiter) (others : List MemoryBlock) (realSize allocated : Nat) : Option (Option Nat × MemoryLimiter) :=
  if realSize < entrySize then none
  else some (some limiter.addresses,{limiter with
    allocated := allocated
    blocks := ⟨limiter.addresses,realSize,realSize⟩ :: others
    addresses := limiter.addresses + 1})

def realSize (sizeToAlloc : Nat) : Nat := sizeT (sizeToAlloc + entrySize)

def alloc (limiter : MemoryLimiter) (limitType : AllocationType) (sizeToAlloc : Nat) (granted : Bool) :
    Option (Option Nat × MemoryLimiter) :=
  if limiter.willAllocationFit limitType (realSize sizeToAlloc) then
    if platformGives limiter.blocks (realSize sizeToAlloc) granted then
      limiter.enter limiter.blocks (realSize sizeToAlloc) (sizeT (limiter.allocated + realSize sizeToAlloc))
    else some (none,limiter)
  else some (none,limiter)

def calloc (limiter : MemoryLimiter) (limitType : AllocationType) (num sizeToAlloc : Nat) (granted : Bool) :
    Option (Option Nat × MemoryLimiter) :=
  limiter.alloc limitType (sizeT (num * sizeToAlloc)) granted

def blockAt (blocks : List MemoryBlock) (address : Nat) : Option MemoryBlock := blocks.find? (·.address == address)

def withoutBlock (blocks : List MemoryBlock) (address : Nat) : List MemoryBlock := blocks.eraseP (·.address == address)

def realDiff (sizeToAlloc size : Nat) : Int := longLong ((realSize sizeToAlloc : Int) - size)

/-- Of a block that is not there nothing can be said. A platform that is asked for no byte and gives none has freed the block. -/
def realloc (limiter : MemoryLimiter) (limitType : AllocationType) (ptr : Option Nat) (sizeToAlloc : Nat) (granted : Bool) :
    Option (Option Nat × MemoryLimiter) :=
  match ptr with
  | none => some (none,limiter)
  | some address => (blockAt limiter.blocks address).bind fun entry =>
    if limiter.willAllocationFit limitType (max (realDiff sizeToAlloc entry.size) 0).toNat then
      if platformGives (withoutBlock limiter.blocks address) (realSize sizeToAlloc) granted then
        limiter.enter (withoutBlock limiter.blocks address) (realSize sizeToAlloc)
          ((limiter.allocated + realDiff sizeToAlloc entry.size) % 2 ^ 64).toNat
      else if realSize sizeToAlloc = 0 then some (none,{limiter with blocks := withoutBlock limiter.blocks address})
      else some (none,limiter)
    else some (none,limiter)

def free (limiter : MemoryLimiter) (ptr : Option Nat) : Option MemoryLimiter :=
  match ptr with
  | none => some limiter
  | some address => (blockAt limiter.blocks address).bind fun entry =>
    let left := toInt limiter.allocated - toInt entry.size
    if entry.size ≤ limiter.allocated ∧ -2 ^ 31 ≤ left ∧ left < 2 ^ 31 then
      some {limiter with blocks := withoutBlock limiter.blocks address,allocated := (max left 0).toNat}
    else none

inductive Call
  | alloc (limitType : AllocationType) (sizeToAlloc : UInt64) (granted : Bool)
  | calloc (limitType : AllocationType) (num sizeToAlloc : UInt64) (granted : Bool)
  | realloc (limitType : AllocationType) (ptr : Option Nat) (sizeToAlloc : UInt64) (granted : Bool)
  | free (ptr : Option Nat)
  | setLimit (newMemoryLimit : UInt64)
  deriving DecidableEq, Repr

/-- A block that is passed in is a live one. -/
def Call.Live (limiter : MemoryLimiter) : Call → Prop
  | .realloc _ (some address) _ _ => (blockAt limiter.blocks address).isSome
  | .free (some address) => (blockAt limiter.blocks address).isSome
  | _ => True

def next (limiter : MemoryLimiter) : Call → Option MemoryLimiter
  | .alloc limitType sizeToAlloc granted => (limiter.alloc limitType sizeToAlloc.toNat granted).map Prod.snd
  | .calloc limitType num sizeToAlloc granted => (limiter.calloc limitType num.toNat sizeToAlloc.toNat granted).map Prod.snd
  | .realloc limitType ptr sizeToAlloc granted => (limiter.realloc limitType ptr sizeToAlloc.toNat granted).map Prod.snd
  | .free ptr => limiter.free ptr
  | .setLimit newMemoryLimit => some (limiter.setLimit newMemoryLimit).2

/-- The counter is the sum of the sizes of the blocks. -/
def Accounted (limiter : MemoryLimiter) : Prop := limiter.allocated = held limiter.blocks

/-- What a request for memory leaves behind. -/
structure Answered (limiter : MemoryLimiter) (limitType : AllocationType) (requested : Nat) (ptr : Option Nat)
    (limiter' : MemoryLimiter) : Prop where
  accounted : limiter'.Accounted
  refused : ptr = none → limiter' = limiter
  within : ptr ≠ none → held limiter'.blocks ≤ limiter.limit limitType
  enough : ∀ address, ptr = some address → ∃ block ∈ limiter'.blocks, block.address = address ∧ requested + entrySize ≤ block.bytes

def Wanted (limiter : MemoryLimiter) (call : Call) : Prop :=
  call.Live limiter → match call with
    | .alloc limitType sizeToAlloc granted =>
      ∃ ptr limiter', limiter.alloc limitType sizeToAlloc.toNat granted = some (ptr,limiter') ∧
        limiter.Answered limitType sizeToAlloc.toNat ptr limiter'
    | .calloc limitType num sizeToAlloc granted =>
      ∃ ptr limiter', limiter.calloc limitType num.toNat sizeToAlloc.toNat granted = some (ptr,limiter') ∧
        limiter.Answered limitType (num.toNat * sizeToAlloc.toNat) ptr limiter'
    | .realloc limitType ptr sizeToAlloc granted =>
      ∃ answer limiter', limiter.realloc limitType ptr sizeToAlloc.toNat granted = some (answer,limiter') ∧
        limiter.Answered limitType sizeToAlloc.toNat answer limiter'
    | .free ptr => ∃ limiter', limiter.free ptr = some limiter' ∧ limiter'.Accounted ∧
        ∀ address, ptr = some address → limiter'.blocks = withoutBlock limiter.blocks address
    | .setLimit newMemoryLimit => (limiter.setLimit newMemoryLimit).2.Accounted ∧
        (limiter.setLimit newMemoryLimit).2.blocks = limiter.blocks

/-- A request of `requested` bytes that would be given fits a `size_t` with its header. -/
def Fits (limiter : MemoryLimiter) (limitType : AllocationType) (requested : Nat) (granted : Bool) : Prop :=
  limiter.willAllocationFit limitType (realSize requested) → platformGives limiter.blocks (realSize requested) granted →
    requested + entrySize < 2 ^ 64

/-- The calls whose numbers stay inside their types. -/
def Fitting (limiter : MemoryLimiter) : Call → Prop
  | .alloc limitType sizeToAlloc granted => limiter.Fits limitType sizeToAlloc.toNat granted
  | .calloc limitType num sizeToAlloc granted => limiter.Fits limitType (num.toNat * sizeToAlloc.toNat) granted
  | .realloc limitType ptr sizeToAlloc granted => ∀ address entry, ptr = some address →
      blockAt limiter.blocks address = some entry →
      limiter.willAllocationFit limitType (max (realDiff sizeToAlloc.toNat entry.size) 0).toNat →
      platformGives (withoutBlock limiter.blocks address) (realSize sizeToAlloc.toNat) granted ∨ realSize sizeToAlloc.toNat = 0 →
      sizeToAlloc.toNat + entrySize < 2 ^ 64
  | .free ptr => ∀ address entry, ptr = some address → blockAt limiter.blocks address = some entry →
      (limiter.allocated + 2 ^ 31) / 2 ^ 32 = (entry.size + 2 ^ 31) / 2 ^ 32 ∧ limiter.allocated - entry.size < 2 ^ 31
  | .setLimit _ => True

/-- The headers say what the platform gave, and the counter how much that is. -/
structure Sound (limiter : MemoryLimiter) : Prop where
  accounted : limiter.Accounted
  honest : ∀ block ∈ limiter.blocks, block.size = block.bytes
  apart : held limiter.blocks < 2 ^ 63

section Blocks

variable {blocks : List MemoryBlock}

theorem held_of_blockAt {address : Nat} {entry : MemoryBlock} (found : blockAt blocks address = some entry) :
    held blocks = held (withoutBlock blocks address) + entry.bytes ∧ entry ∈ blocks := by
  obtain ⟨matches_,before,after,rfl,others⟩ := List.find?_eq_some_iff_append.mp found
  have rest : withoutBlock (before ++ entry :: after) address = before ++ after := by
    rw [withoutBlock,List.eraseP_append_right _ (by simpa using others),List.eraseP_cons_of_pos (by simpa using matches_)]
  refine ⟨?_,by simp⟩
  rw [rest]
  simp only [held,List.map_append,List.map_cons,List.sum_append,List.sum_cons]
  omega

/-- A block that is freed is gone. -/
theorem withoutBlock_ne {address : Nat} {entry : MemoryBlock} (found : blockAt blocks address = some entry) :
    withoutBlock blocks address ≠ blocks := by
  intro same
  have shorter := List.length_eraseP_of_mem (held_of_blockAt found).2 (List.find?_some found)
  have some_block := List.length_pos_of_mem (held_of_blockAt found).2
  rw [← withoutBlock,same] at shorter
  omega

theorem bytes_le_held {block : MemoryBlock} (member : block ∈ blocks) : block.bytes ≤ held blocks :=
  List.le_sum_of_mem (List.mem_map_of_mem member)

theorem honest_without (honest : ∀ block ∈ blocks, block.size = block.bytes) (address : Nat) :
    ∀ block ∈ withoutBlock blocks address, block.size = block.bytes :=
  fun block member => honest block (List.mem_of_mem_eraseP member)

end Blocks

section Numbers

theorem realSize_sizeT (requested : Nat) : realSize (sizeT requested) = realSize requested := by
  rw [realSize,realSize,sizeT,sizeT,sizeT,Nat.mod_add_mod]

theorem realSize_small {requested : Nat} (small : requested + entrySize < 2 ^ 64) : realSize requested = requested + entrySize :=
  Nat.mod_eq_of_lt small

theorem sizeT_small {n : Nat} (small : n < 2 ^ 64) : sizeT n = n := Nat.mod_eq_of_lt small

theorem longLong_small {n : Int} (low : -2 ^ 63 ≤ n) (high : n < 2 ^ 63) : longLong n = n := by
  rw [longLong]
  omega

/-- The difference of two conversions is that of the numbers if both are cut off at the same multiple of `2 ^ 32`. -/
theorem toInt_sub (whole part : Nat) :
    toInt whole - toInt part = (whole : Int) - part ↔ (whole + 2 ^ 31) / 2 ^ 32 = (part + 2 ^ 31) / 2 ^ 32 := by
  rw [toInt,toInt]
  omega

end Numbers

section Requests

variable {limiter : MemoryLimiter} {limitType : AllocationType} {granted : Bool}

theorem answered_none (accounted : limiter.Accounted) (requested : Nat) : limiter.Answered limitType requested none limiter where
  accounted := accounted
  refused := fun _ => rfl
  within := fun some => absurd rfl some
  enough := fun _ same => by cases same

/-- What a block that has been entered beside `others` leaves behind. -/
theorem enter_answered {others : List MemoryBlock} {requested allocated : Nat} (small : requested + entrySize < 2 ^ 64)
    (accounted : allocated = held others + realSize requested) (honest : ∀ block ∈ others, block.size = block.bytes)
    (apart : held others + realSize requested < 2 ^ 63) (within : held others + realSize requested ≤ limiter.limit limitType) :
    ∃ ptr limiter', limiter.enter others (realSize requested) allocated = some (ptr,limiter') ∧
      limiter.Answered limitType requested ptr limiter' ∧ limiter'.Sound := by
  have real := realSize_small small
  have sum : held (⟨limiter.addresses,realSize requested,realSize requested⟩ :: others) = held others + realSize requested := by
    rw [held,List.map_cons,List.sum_cons,held,Nat.add_comm]
  refine ⟨_,_,by rw [enter,if_neg (by omega)],⟨?_,by simp,fun _ => ?_,?_⟩,?_,?_,?_⟩
  · exact accounted.trans sum.symm
  · exact sum.trans_le within
  · rintro address ⟨⟩
    exact ⟨_,List.mem_cons_self,rfl,real.ge⟩
  · exact accounted.trans sum.symm
  · intro block member
    rcases List.mem_cons.mp member with rfl | other
    · rfl
    · exact honest block other
  · exact sum.trans_lt apart

/-- No block is as large as a size that does not fit a `size_t` with its header. -/
theorem enter_too_small {others : List MemoryBlock} {requested allocated : Nat} (large : 2 ^ 64 ≤ requested + entrySize)
    (apart : held others + realSize requested < 2 ^ 63) {ptr : Option Nat} {limiter' : MemoryLimiter}
    (entered : limiter.enter others (realSize requested) allocated = some (ptr,limiter')) :
    ¬ limiter.Answered limitType requested ptr limiter' := by
  intro answered
  rw [enter] at entered
  split at entered
  · cases entered
  · cases entered
    obtain ⟨block,member,_,enough⟩ := answered.enough limiter.addresses rfl
    have bound := bytes_le_held member
    rw [held,List.map_cons,List.sum_cons,← held] at bound
    simp only at bound
    omega

theorem alloc_answered (sound : limiter.Sound) {requested : Nat} (fits : limiter.Fits limitType requested granted) :
    ∃ ptr limiter', limiter.alloc limitType (sizeT requested) granted = some (ptr,limiter') ∧
      limiter.Answered limitType requested ptr limiter' ∧ limiter'.Sound := by
  rw [alloc,realSize_sizeT]
  by_cases fit : limiter.willAllocationFit limitType (realSize requested)
  · by_cases given : platformGives limiter.blocks (realSize requested) granted
    · rw [if_pos fit,if_pos given]
      have apart : held limiter.blocks + realSize requested < 2 ^ 63 := by
        simpa using (Bool.and_eq_true_iff.mp given).2
      have counter : limiter.allocated = held limiter.blocks := sound.accounted
      have whole : sizeT (limiter.allocated + realSize requested) = held limiter.blocks + realSize requested := by
        rw [counter]
        exact sizeT_small (by omega)
      refine enter_answered (fits fit given) whole sound.honest apart ?_
      rw [← whole]
      simpa [willAllocationFit] using fit
    · exact ⟨none,limiter,by rw [if_pos fit,if_neg given],answered_none sound.accounted _,sound⟩
  · exact ⟨none,limiter,by rw [if_neg fit],answered_none sound.accounted _,sound⟩

theorem alloc_iff (sound : limiter.Sound) (requested : Nat) :
    (∃ ptr limiter', limiter.alloc limitType (sizeT requested) granted = some (ptr,limiter') ∧
      limiter.Answered limitType requested ptr limiter') ↔ limiter.Fits limitType requested granted := by
  constructor
  · rintro ⟨ptr,limiter',allocated,answered⟩ fit given
    by_contra large
    rw [alloc,realSize_sizeT,if_pos fit,if_pos given] at allocated
    refine enter_too_small (by omega) ?_ allocated answered
    simpa using (Bool.and_eq_true_iff.mp given).2
  · intro fits
    obtain ⟨ptr,limiter',allocated,answered,_⟩ := alloc_answered sound fits
    exact ⟨ptr,limiter',allocated,answered⟩

/-- The new counter of a block that changes its size, and what the check of the limit has said about it. -/
theorem resized {address size : Nat} {entry : MemoryBlock} (sound : limiter.Sound) (found : blockAt limiter.blocks address = some entry)
    (fit : limiter.willAllocationFit limitType (max (realDiff size entry.size) 0).toNat)
    (apart : held (withoutBlock limiter.blocks address) + realSize size < 2 ^ 63) :
    ((limiter.allocated + realDiff size entry.size) % 2 ^ 64).toNat = held (withoutBlock limiter.blocks address) + realSize size ∧
      held (withoutBlock limiter.blocks address) + realSize size ≤ limiter.limit limitType := by
  obtain ⟨sum,member⟩ := held_of_blockAt found
  have counter : limiter.allocated = held limiter.blocks := sound.accounted
  have honest := sound.honest entry member
  have bound := sound.apart
  have difference : realDiff size entry.size = (realSize size : Int) - entry.size := longLong_small (by omega) (by omega)
  rw [difference] at fit ⊢
  refine ⟨by omega,?_⟩
  have limited : sizeT (limiter.allocated + (max ((realSize size : Int) - entry.size) 0).toNat) ≤ limiter.limit limitType := by
    simpa [willAllocationFit] using fit
  rw [sizeT_small (by omega)] at limited
  omega

theorem realloc_answered (sound : limiter.Sound) {ptr : Option Nat} {size : UInt64}
    (live : Call.Live limiter (.realloc limitType ptr size granted)) (fitting : limiter.Fitting (.realloc limitType ptr size granted)) :
    ∃ answer limiter', limiter.realloc limitType ptr size.toNat granted = some (answer,limiter') ∧
      limiter.Answered limitType size.toNat answer limiter' ∧ limiter'.Sound := by
  cases ptr with
  | none => exact ⟨none,limiter,rfl,answered_none sound.accounted _,sound⟩
  | some address =>
    obtain ⟨entry,found⟩ := Option.isSome_iff_exists.mp live
    simp only [realloc,found,Option.bind_some]
    by_cases fit : limiter.willAllocationFit limitType (max (realDiff size.toNat entry.size) 0).toNat
    · by_cases given : platformGives (withoutBlock limiter.blocks address) (realSize size.toNat) granted
      · rw [if_pos fit,if_pos given]
        have apart : held (withoutBlock limiter.blocks address) + realSize size.toNat < 2 ^ 63 := by
          simpa using (Bool.and_eq_true_iff.mp given).2
        obtain ⟨counter,within⟩ := resized sound found fit apart
        exact enter_answered (fitting address entry rfl found fit (.inl given)) counter (honest_without sound.honest address) apart within
      · have some_byte : realSize size.toNat ≠ 0 := fun zero => by
          have real := realSize_small (fitting address entry rfl found fit (.inr zero))
          rw [entrySize] at real
          omega
        exact ⟨none,limiter,by rw [if_pos fit,if_neg given,if_neg some_byte],answered_none sound.accounted _,sound⟩
    · exact ⟨none,limiter,by rw [if_neg fit],answered_none sound.accounted _,sound⟩

theorem realloc_iff (sound : limiter.Sound) {ptr : Option Nat} {size : UInt64}
    (live : Call.Live limiter (.realloc limitType ptr size granted)) :
    (∃ answer limiter', limiter.realloc limitType ptr size.toNat granted = some (answer,limiter') ∧
      limiter.Answered limitType size.toNat answer limiter') ↔ limiter.Fitting (.realloc limitType ptr size granted) := by
  constructor
  · rintro ⟨answer,limiter',resized,answered⟩ address entry rfl found fit either
    by_contra large
    simp only [realloc,found,Option.bind_some,if_pos fit] at resized
    by_cases given : platformGives (withoutBlock limiter.blocks address) (realSize size.toNat) granted
    · rw [if_pos given] at resized
      refine enter_too_small (by omega) ?_ resized answered
      simpa using (Bool.and_eq_true_iff.mp given).2
    · rw [if_neg given,if_pos (either.resolve_left given)] at resized
      cases resized
      exact withoutBlock_ne found (congrArg blocks (answered.refused rfl))
  · intro fitting
    obtain ⟨answer,limiter',resized,answered,_⟩ := realloc_answered sound live fitting
    exact ⟨answer,limiter',resized,answered⟩

end Requests

section Frees

variable {limiter : MemoryLimiter}

/-- The counter after a free, where the subtraction of the two `int` stands for that of the sizes. -/
theorem free_iff (sound : limiter.Sound) {address : Nat} {entry : MemoryBlock} (found : blockAt limiter.blocks address = some entry) :
    (∃ limiter', limiter.free (some address) = some limiter' ∧ limiter'.Accounted ∧
      ∀ address', some address = some address' → limiter'.blocks = withoutBlock limiter.blocks address') ↔
      (limiter.allocated + 2 ^ 31) / 2 ^ 32 = (entry.size + 2 ^ 31) / 2 ^ 32 ∧ limiter.allocated - entry.size < 2 ^ 31 := by
  obtain ⟨sum,member⟩ := held_of_blockAt found
  have counter : limiter.allocated = held limiter.blocks := sound.accounted
  have honest := sound.honest entry member
  have difference := toInt_sub limiter.allocated entry.size
  simp only [free,found,Option.bind_some]
  constructor
  · rintro ⟨limiter',freed,accounted,_⟩
    split at freed
    · rename_i inside
      obtain rfl := Option.some.inj freed
      simp only [Accounted] at accounted
      have window : toInt limiter.allocated - toInt entry.size = (limiter.allocated : Int) - entry.size ∨
          held (withoutBlock limiter.blocks address) = 0 := by omega
      rcases window with same | nothing
      · exact ⟨difference.mp same,by omega⟩
      · obtain same : limiter.allocated = entry.size := by omega
        rw [same]
        exact ⟨rfl,by omega⟩
    · cases freed
  · rintro ⟨window,small⟩
    have same := difference.mpr window
    have inside : entry.size ≤ limiter.allocated ∧ -2 ^ 31 ≤ toInt limiter.allocated - toInt entry.size ∧
        toInt limiter.allocated - toInt entry.size < 2 ^ 31 := ⟨by omega,by omega,by omega⟩
    simp only [if_pos inside,Option.some_inj,exists_eq_left']
    constructor
    · simp only [Accounted,same]
      clear difference window inside same
      omega
    · intro address' named
      rw [named]

theorem setLimit_kept (limiter : MemoryLimiter) (newMemoryLimit : UInt64) :
    (limiter.setLimit newMemoryLimit).2.allocated = limiter.allocated ∧ (limiter.setLimit newMemoryLimit).2.blocks = limiter.blocks := by
  rw [setLimit]
  split
  · exact ⟨rfl,rfl⟩
  · exact ⟨rfl,rfl⟩

end Frees

theorem wanted_iff_fitting (limiter : MemoryLimiter) (call : Call) (sound : limiter.Sound) :
    limiter.Wanted call ↔ (call.Live limiter → limiter.Fitting call) := by
  simp only [Wanted]
  apply imp_congr_right
  intro live
  cases call with
  | alloc limitType sizeToAlloc granted =>
    have same : sizeT sizeToAlloc.toNat = sizeToAlloc.toNat := sizeT_small sizeToAlloc.toNat_lt
    have known := @alloc_iff limiter limitType granted sound sizeToAlloc.toNat
    rw [same] at known
    exact known
  | calloc limitType num sizeToAlloc granted => exact alloc_iff sound (num.toNat * sizeToAlloc.toNat)
  | realloc limitType ptr sizeToAlloc granted => exact realloc_iff sound live
  | free ptr =>
    cases ptr with
    | none => exact iff_of_true ⟨limiter,rfl,sound.accounted,by simp⟩ (by simp [Fitting])
    | some address =>
      obtain ⟨entry,found⟩ := Option.isSome_iff_exists.mp live
      refine (free_iff sound found).trans ⟨?_,fun fitting => fitting address entry rfl found⟩
      intro window address' entry' named found'
      obtain rfl := Option.some.inj named
      obtain rfl := Option.some.inj (found.symm.trans found')
      exact window
  | setLimit newMemoryLimit =>
    exact iff_of_true ⟨(setLimit_kept limiter newMemoryLimit).1.trans (sound.accounted.trans (by rw [(setLimit_kept _ _).2])),
      (setLimit_kept limiter newMemoryLimit).2⟩ trivial

theorem next_sound {limiter limiter' : MemoryLimiter} {call : Call} (sound : limiter.Sound) (live : call.Live limiter)
    (fitting : limiter.Fitting call) (stepped : limiter.next call = some limiter') : limiter'.Sound := by
  cases call with
  | alloc limitType sizeToAlloc granted =>
    have same : sizeT sizeToAlloc.toNat = sizeToAlloc.toNat := sizeT_small sizeToAlloc.toNat_lt
    obtain ⟨ptr,after,allocated,_,sound'⟩ := alloc_answered sound fitting
    rw [same] at allocated
    obtain rfl : after = limiter' := by simpa [next,allocated] using stepped
    exact sound'
  | calloc limitType num sizeToAlloc granted =>
    obtain ⟨ptr,after,allocated,_,sound'⟩ := alloc_answered sound fitting
    obtain rfl : after = limiter' := by simpa [next,calloc,allocated] using stepped
    exact sound'
  | realloc limitType ptr sizeToAlloc granted =>
    obtain ⟨answer,after,resized,_,sound'⟩ := realloc_answered sound live fitting
    obtain rfl : after = limiter' := by simpa [next,resized] using stepped
    exact sound'
  | free ptr =>
    cases ptr with
    | none =>
      obtain rfl : limiter = limiter' := by simpa [next,free] using stepped
      exact sound
    | some address =>
      obtain ⟨entry,found⟩ := Option.isSome_iff_exists.mp live
      obtain ⟨sum,_⟩ := held_of_blockAt found
      obtain ⟨after,freed,accounted,blocks⟩ := (free_iff sound found).mpr (fitting address entry rfl found)
      obtain rfl : after = limiter' := by simpa [next,freed] using stepped
      have rest := blocks address rfl
      refine ⟨accounted,?_,?_⟩
      · rw [rest]
        exact honest_without sound.honest address
      · rw [rest]
        have bound := sound.apart
        omega
  | setLimit newMemoryLimit =>
    obtain rfl : (limiter.setLimit newMemoryLimit).2 = limiter' := by simpa [next] using stepped
    obtain ⟨allocated,blocks⟩ := setLimit_kept limiter newMemoryLimit
    refine ⟨?_,?_,?_⟩
    · rw [Accounted,allocated,blocks]
      exact sound.accounted
    · rw [blocks]
      exact sound.honest
    · rw [blocks]
      exact sound.apart

theorem live_of_next {limiter limiter' : MemoryLimiter} {call : Call} (stepped : limiter.next call = some limiter') :
    call.Live limiter := by
  cases call with
  | realloc limitType ptr sizeToAlloc granted =>
    cases ptr with
    | none => trivial
    | some address =>
      cases found : blockAt limiter.blocks address with
      | none => simp [next,realloc,found] at stepped
      | some entry => simp [Call.Live,found]
  | free ptr =>
    cases ptr with
    | none => trivial
    | some address =>
      cases found : blockAt limiter.blocks address with
      | none => simp [next,free,found] at stepped
      | some entry => simp [Call.Live,found]
  | alloc limitType sizeToAlloc granted => trivial
  | calloc limitType num sizeToAlloc granted => trivial
  | setLimit newMemoryLimit => trivial

theorem initial_sound : initial.Sound where
  accounted := rfl
  honest := by simp [initial]
  apart := by simp [initial,held]

/-- Through every run the limiter accounts for what it has given, keeps its limits and gives what is asked for, exactly if no size
that is given is cut off by a `size_t`, and no sum in a free by an `int`. -/
theorem accounted_iff_fitting (calls : List Call) :
    (initial.Accounted ∧ Runs.Each next Wanted initial calls) ↔
      Runs.Each next (fun limiter call => call.Live limiter → limiter.Fitting call) initial calls := by
  rw [and_iff_right initial_sound.accounted]
  refine Runs.each_iff (I := Sound) wanted_iff_fitting ?_ initial_sound
  intro limiter call limiter' sound wanted stepped
  have live := live_of_next stepped
  exact next_sound sound live ((wanted_iff_fitting limiter call sound).mp wanted live) stepped

/-- `2 ^ 63` elements of two bytes are a block without a byte. -/
theorem calloc_gives_too_little : ¬ ∀ calls : List Call, initial.Accounted ∧ Runs.Each next Wanted initial calls := by
  intro claim
  obtain ⟨_,wanted,_⟩ := claim [.calloc .application 9223372036854775808 2 true]
  obtain ⟨ptr,limiter',given,answered⟩ := wanted trivial
  have empty : initial.calloc .application 9223372036854775808 2 true =
      some (some 0,⟨524288,526312,8,[⟨0,8,8⟩],1⟩) := by decide +kernel
  obtain ⟨rfl,rfl⟩ : some 0 = ptr ∧ ⟨524288,526312,8,[⟨0,8,8⟩],1⟩ = limiter' := by simpa using empty.symm.trans given
  obtain ⟨block,member,_,enough⟩ := answered.enough 0 rfl
  obtain rfl : block = ⟨0,8,8⟩ := by simpa using member
  revert enough
  decide +kernel

end MemoryLimiter

end XivelyClient
