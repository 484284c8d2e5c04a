import Mathlib.Algebra.Group.Int.Defs
import Mathlib.Logic.Function.Basic

/-! The experimental heap (`stack_allocator.c`, `list.c`): blocks with a header inside, free blocks in the order of their
addresses. A list is the addresses of its entries in the order of the links; sizes are those of a 64-bit platform. -/
namespace XivelyClient.HeapAllocator

section Addresses

def intptr (x : Int) : Int := (x + 2 ^ 63) % 2 ^ 64 - 2 ^ 63

def sizeT (x : Int) : Int := x % 2 ^ 64

def xiAlign : Int := 4

/-- `sizeof( stack_allocator_entry_t )`. -/
def extraSpaceSize : Int := 32

/-- `& ~( align - 1 )` takes the remainder off. -/
def alignAddress (align offset : Int) : Int :=
  let sum := intptr (offset + align - 1)
  sum - sum % align

def internalFromExternal (extraSize align alignedAddr : Int) : Int :=
  alignAddress align (intptr (alignedAddr - extraSize - 1))

def externalFromInternal (extraSize align internalAlignedAddr : Int) : Int :=
  alignAddress align (intptr (internalAlignedAddr + extraSize))

end Addresses

/-- `stack_allocator_entry_t`. -/
structure Entry where
  rawAddress : Int
  size : Int

/-- The two lists of the allocator, and the headers in the memory. -/
structure StackAllocator where
  memory : Int → Entry
  freeBlocks : List Int
  allocatedBlocks : List Int

section Lists

def listRemove (list : List Int) (node : Int) : Option (List Int) :=
  if node ∈ list then some (list.erase node) else none

def listRelocate (list : List Int) (node newAddr : Int) : Option (List Int) :=
  if newAddr = node then none else if node ∈ list then some (list.replace node newAddr) else none

/-- What is linked behind a node. -/
def nodeNext (node : Int) : List Int → Option Int
  | [] => none
  | a :: rest => if a = node then rest.head? else nodeNext node rest

def listInsertBehind (node element : Int) : List Int → List Int
  | [] => []
  | a :: rest => if a = element then a :: node :: rest else a :: listInsertBehind node element rest

def listInsertAfter (list : List Int) (node : Int) : Option Int → List Int
  | none => node :: list
  | some element => listInsertBehind node element list

/-- The loop of `list_find_spot_if` from a slot on. There is no answer when it goes beyond the last slot, through NULL. -/
def findSpotFrom (pred : Option Int → Option Int → Bool) (prev : Option Int) : List Int → Option (Option Int × Option Int)
  | [] => if pred prev none then some (prev,none) else none
  | next :: rest => if pred prev (some next) then some (prev,some next) else findSpotFrom pred (some next) rest

end Lists

/-- What a call leaves: the allocator, the pointer it returns, where 0 is NULL, and whether its assertions held. -/
structure Outcome where
  heap : StackAllocator
  result : Int
  asserted : Bool

section Calls

def init (memory : Int → Entry) (memoryBuffer memoryBufferSize : Int) : StackAllocator :=
  let alignedAddr := alignAddress xiAlign memoryBuffer
  ⟨Function.update memory alignedAddr ⟨memoryBuffer,memoryBufferSize⟩,[alignedAddr],[]⟩

def matchingSizePred (memory : Int → Entry) (requiredSize entry : Int) : Bool :=
  let externalAlignedAddr := externalFromInternal extraSpaceSize xiAlign entry
  let endOfTheBlock := intptr (externalAlignedAddr + requiredSize)
  let newFreeBlockBeginning := alignAddress xiAlign endOfTheBlock
  let newFreeBlockInternalPartEnds := externalFromInternal extraSpaceSize xiAlign newFreeBlockBeginning
  let oldBlockEnd := intptr ((memory entry).rawAddress + (memory entry).size)
  decide (newFreeBlockInternalPartEnds < oldBlockEnd)

/-- Where the header of the free rest goes, unaligned. -/
def newFreeUnaligned (size entry : Int) : Int := intptr (externalFromInternal extraSpaceSize xiAlign entry + size)

def newFreeAligned (size entry : Int) : Int := alignAddress xiAlign (newFreeUnaligned size entry)

variable (heap : StackAllocator)

/-- `assert( NULL != arg )` of `matching_size_pred`: its argument is the size, and it is called for the first free block. -/
def argAsserted (size : Int) : Bool := size != 0 || heap.freeBlocks.isEmpty

def alloc (size : Int) : Outcome :=
  match heap.freeBlocks.find? (matchingSizePred heap.memory size) with
  | none => ⟨heap,0,argAsserted heap size⟩
  | some originalEntry =>
    let newFreeEntry := newFreeAligned size originalEntry
    match listRelocate heap.freeBlocks originalEntry newFreeEntry with
    | none => ⟨heap,0,argAsserted heap size⟩
    | some freeBlocks =>
      let original := heap.memory originalEntry
      let newFree : Entry := {
        rawAddress := newFreeUnaligned size originalEntry
        size := sizeT (original.rawAddress + original.size - newFreeUnaligned size originalEntry)}
      let taken : Entry := {original with size := sizeT (original.size - newFree.size)}
      let memory := Function.update (Function.update heap.memory newFreeEntry newFree) originalEntry taken
      let touches := match nodeNext newFreeEntry freeBlocks with
        | none => true
        | some next => sizeT (newFree.rawAddress + newFree.size) == sizeT (memory next).rawAddress
      { heap := ⟨memory,freeBlocks,originalEntry :: heap.allocatedBlocks⟩
        result := externalFromInternal extraSpaceSize xiAlign originalEntry
        asserted := argAsserted heap size && sizeT (taken.rawAddress + taken.size) == sizeT newFree.rawAddress && touches }

def listInsertSortPred (memory : Int → Entry) (node : Int) : Option Int → Option Int → Bool
  | some prev,some tmp =>
    (memory prev).rawAddress < (memory node).rawAddress && (memory node).rawAddress < (memory tmp).rawAddress
  | some prev,none => (memory prev).rawAddress < (memory node).rawAddress
  | none,some tmp => (memory node).rawAddress < (memory tmp).rawAddress
  | none,none => false

/-- `a` ends where `b` begins, as the merges test it. -/
def touching (memory : Int → Entry) (a b : Int) : Bool :=
  intptr ((memory a).rawAddress + intptr (memory a).size) == (memory b).rawAddress

/-- The block takes the one behind it, whose node leaves the list. -/
def absorb (heap : StackAllocator) (entry gone : Int) : Option StackAllocator :=
  (listRemove heap.freeBlocks gone).map fun freeBlocks => {heap with
    freeBlocks := freeBlocks
    memory := Function.update heap.memory entry
      {heap.memory entry with size := sizeT ((heap.memory entry).size + (heap.memory gone).size)}}

def mergeNext (heap : StackAllocator) (entry : Int) : Option Int → Option StackAllocator
  | none => some heap
  | some next => if touching heap.memory entry next then absorb heap entry next else some heap

def mergePrev (heap : StackAllocator) (entry : Int) : Option Int → Option StackAllocator
  | none => some heap
  | some prev => if touching heap.memory prev entry then absorb heap prev entry else some heap

/-- Both merges; a node that is not found ends the call. -/
def mergeAround (heap : StackAllocator) (prev : Option Int) (entry : Int) (next : Option Int) : StackAllocator :=
  match mergeNext heap entry next with
  | none => heap
  | some heap => (mergePrev heap entry prev).getD heap

/-- There is no outcome when the search for the spot goes through NULL. -/
def free (ptr : Int) : Option Outcome :=
  if ptr = 0 then some ⟨heap,0,true⟩
  else
    let entry := internalFromExternal extraSpaceSize xiAlign ptr
    let above := decide (sizeT (extraSpaceSize - 1) ≤ sizeT ptr)
    match listRemove heap.allocatedBlocks entry with
    | none => some ⟨heap,0,above⟩
    | some allocatedBlocks =>
      if heap.freeBlocks.isEmpty then some ⟨{heap with allocatedBlocks := allocatedBlocks},0,above⟩
      else
        (findSpotFrom (listInsertSortPred heap.memory entry) none heap.freeBlocks).map fun (prev,next) =>
          let freeBlocks := listInsertAfter heap.freeBlocks entry prev
          let linked := match prev with
            | none => true
            | some prev => nodeNext prev freeBlocks == some entry
          ⟨mergeAround ⟨heap.memory,freeBlocks,allocatedBlocks⟩ prev entry next,0,above && linked⟩

end Calls

end XivelyClient.HeapAllocator
