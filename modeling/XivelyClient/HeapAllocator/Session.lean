import XivelyClient.HeapAllocator.Calls
import XivelyClient.Lib.Runs

/-! Programs that allocate and free. Whatever the pattern of holes, the blocks tile the pool. -/
namespace XivelyClient.HeapAllocator
open Tiling Runs

/-- A buffer that `stack_allocator_init` takes, where the addresses of a 64-bit process are. -/
structure Buffer where
  address : Int
  size : Int
  notNull : 0 < address
  sized : 1 < size
  addressable : address + size ≤ 2 ^ 61
  roomy : extraSpaceSize < address + size - alignAddress xiAlign address

/-- The allocator, and the pointers the program holds with the sizes it asked for. -/
structure Session where
  heap : StackAllocator
  live : List (Int × Int)

inductive Event
  | alloc (size : UInt64)
  | free (ptr : Int)

namespace Session

def begin (memory : Int → Entry) (buffer : Buffer) : Session := ⟨init memory buffer.address buffer.size,[]⟩

def outcome (s : Session) : Event → Option Outcome
  | .alloc size => some (alloc s.heap size.toNat)
  | .free ptr => HeapAllocator.free s.heap ptr

def after (s : Session) (out : Outcome) : Event → Session
  | .alloc size => ⟨out.heap,if out.result = 0 then s.live else (out.result,(size.toNat : Int)) :: s.live⟩
  | .free ptr => ⟨out.heap,if ptr = 0 then s.live else s.live.filter (·.1 != ptr)⟩

/-- A step of a build without assertions. -/
def perform (s : Session) (event : Event) : Option Session := (s.outcome event).map (s.after · event)

/-- Only NULL and pointers of the allocator are freed, once. -/
def Frees (s : Session) : Event → Prop
  | .alloc _ => True
  | .free ptr => ptr = 0 ∨ ∃ size, (ptr,size) ∈ s.live

def Allowed (buffer : Buffer) (s : Session) (event : Event) : Prop :=
  s.Frees event ∧ ∀ size, event = .alloc size → (size.toNat : Int) ≤ buffer.size

/-- The area behind the header of a live pointer's block. -/
def payload (s : Session) (ptr : Int) : Int × Int := (ptr,stop s.heap.memory (ptr - extraSpaceSize))

structure Tiled (buffer : Buffer) (s : Session) : Prop where
  tiles : ∃ blocks, blocks.Perm (s.heap.freeBlocks ++ s.heap.allocatedBlocks) ∧
    Tiles (raw s.heap.memory) (stop s.heap.memory) buffer.address blocks (buffer.address + buffer.size)
  sorted : s.heap.freeBlocks.Pairwise fun a b => raw s.heap.memory a < raw s.heap.memory b
  nonempty : s.heap.freeBlocks ≠ []
  coalesced : ∀ a ∈ s.heap.freeBlocks, ∀ b ∈ s.heap.freeBlocks, stop s.heap.memory a ≠ raw s.heap.memory b
  owned : ∀ entry, entry ∈ s.heap.allocatedBlocks ↔ ∃ size, (entry + extraSpaceSize,size) ∈ s.live
  aligned : ∀ p ∈ s.live, p.1 % xiAlign = 0
  large : ∀ p ∈ s.live, p.2 ≤ (s.payload p.1).2 - (s.payload p.1).1
  inside : ∀ p ∈ s.live, buffer.address ≤ (s.payload p.1).1 ∧ (s.payload p.1).2 ≤ buffer.address + buffer.size
  apart : s.live.Pairwise fun p q => (s.payload p.1).2 ≤ (s.payload q.1).1 ∨ (s.payload q.1).2 ≤ (s.payload p.1).1

/-- The pointers the program holds are those of the blocks in use. -/
structure Held (s : Session) : Prop where
  owned : ∀ e, e ∈ s.heap.allocatedBlocks ↔ ∃ size, (e + 32,size) ∈ s.live
  distinct : (s.live.map (·.1)).Nodup
  fits : ∀ p ∈ s.live, p.1 + p.2 ≤ stop s.heap.memory (p.1 - 32)

def Sound (buffer : Buffer) (s : Session) : Prop :=
  (∃ blocks, Good buffer.address (buffer.address + buffer.size) s.heap blocks) ∧ s.Held

variable {buffer : Buffer} {s : Session} {lo hi : Int} {heap : StackAllocator} {blocks : List (Int × Bool)}

theorem addressable (buffer : Buffer) : Addressable buffer.address (buffer.address + buffer.size) :=
  ⟨buffer.notNull,buffer.addressable⟩

theorem begin_sound (memory : Int → Entry) (buffer : Buffer) : (begin memory buffer).Sound buffer := by
  obtain ⟨address,size,notNull,sized,addressable,roomy⟩ := buffer
  have first : alignAddress xiAlign address = roundUp address := by
    exact alignAddress_eq notNull.le (by omega)
  obtain ⟨rounded,least,near⟩ := roundUp_spec address
  rw [first,extraSpaceSize] at roomy
  refine ⟨⟨[(roundUp address,true)],⟨⟨?_,?_⟩,?_,?_⟩,List.isChain_singleton _,?_⟩,
    ⟨?_,List.nodup_nil,fun _ member => absurd member List.not_mem_nil⟩⟩
  · simp only [begin,init,first,Tiles,raw,stop,List.map_cons,List.map_nil,Function.update_self]
    exact ⟨trivial,by omega,trivial⟩
  · intro e member
    obtain rfl := List.mem_singleton.mp member
    simp only [begin,init,first]
    refine ⟨rounded,?_,?_,?_⟩
    all_goals simp only [raw,stop,Function.update_self]
    all_goals omega
  · simp [begin,init,first]
  · simp [begin,init]
  · simp [begin,init]
  · simp [begin,init]

/-- Every block is in one of the two lists. -/
theorem blocks_perm (blocks : List (Int × Bool)) : (blocks.map (·.1)).Perm (frees blocks ++ used blocks) := by
  rw [frees,used,← List.map_append]
  exact (List.filter_append_perm _ blocks).symm.map _

theorem coalesced_of_good (good : Good lo hi heap blocks) {a b : Int} (memberA : a ∈ frees blocks) (memberB : b ∈ frees blocks) :
    stop heap.memory a ≠ raw heap.memory b := by
  obtain ⟨front,back,rfl⟩ := frees_split memberA
  have laid := good.shows.laid
  simp only [List.map_append,List.map_cons] at laid
  have own := (laid.tiles.within (show a ∈ _ by simp)).2.1
  rw [frees_append,frees_free] at memberB
  rcases List.mem_append.mp memberB with before | later
  · have order := (laid.apart.1 b (frees_subset before)).2
    have proper := (laid.tiles.within (List.mem_append_left _ (frees_subset before))).2.1
    omega
  rcases List.mem_cons.mp later with rfl | behind
  · omega
  · obtain ⟨middle,rest,rfl⟩ := frees_split behind
    simp only [List.map_append,List.map_cons] at laid
    rw [Ne,laid.tiles.touch,List.map_eq_nil_iff]
    rintro rfl
    have chain := (List.isChain_split.mp good.chain).2
    exact (List.isChain_cons_cons.mp chain).1 ⟨rfl,rfl⟩

theorem Held.entry (held : s.Held) {p : Int × Int} (member : p ∈ s.live) : p.1 - 32 ∈ s.heap.allocatedBlocks := by
  refine (held.owned _).mpr ⟨p.2,?_⟩
  rw [Int.sub_add_cancel]
  exact member

theorem Sound.tiled (sound : s.Sound buffer) : s.Tiled buffer := by
  obtain ⟨⟨blocks,good⟩,held⟩ := sound
  have listed := good.shows.freeBlocks
  have inUse {p : Int × Int} (member : p ∈ s.live) : p.1 - 32 ∈ blocks.map (·.1) :=
    used_subset (good.shows.allocatedBlocks.mem_iff.mp (held.entry member))
  refine ⟨⟨blocks.map (·.1),?_,good.shows.laid.tiles⟩,good.sorted,good.slot,?_,held.owned,?_,?_,?_,?_⟩
  · rw [listed]
    exact (blocks_perm blocks).trans (good.shows.allocatedBlocks.symm.append_left _)
  · rw [listed]
    exact fun a memberA b memberB => coalesced_of_good good memberA memberB
  · intro p member
    have aligned := (good.shows.laid.placed _ (inUse member)).aligned
    rw [xiAlign]
    omega
  · intro p member
    have fits := held.fits p member
    simp only [payload,extraSpaceSize]
    omega
  · intro p member
    obtain ⟨low,_,high⟩ := good.shows.laid.bounds (inUse member)
    simp only [payload,extraSpaceSize]
    omega
  · have distinct := List.pairwise_map.mp held.distinct
    refine distinct.imp_of_mem fun {p q} memberP memberQ differs => ?_
    have either := good.shows.laid.tiles.apart (inUse memberP) (inUse memberQ) (by omega)
    have placedP := (good.shows.laid.placed _ (inUse memberP)).after
    have placedQ := (good.shows.laid.placed _ (inUse memberQ)).after
    simp only [payload,extraSpaceSize]
    omega

/-- What an allocation of any size leaves, where the block that is chosen has the room. -/
theorem Sound.alloc (sound : s.Sound buffer) (size : UInt64)
    (fitting : ∀ e, s.heap.freeBlocks.find? (matchingSizePred s.heap.memory size.toNat) = some e → Room s.heap.memory size.toNat e) :
    (s.after (HeapAllocator.alloc s.heap size.toNat) (.alloc size)).Sound buffer := by
  obtain ⟨⟨blocks,good⟩,held⟩ := sound
  have positive : (0 : Int) ≤ size.toNat := Int.natCast_nonneg _
  cases found : s.heap.freeBlocks.find? (matchingSizePred s.heap.memory size.toNat) with
  | none =>
    have nothing : HeapAllocator.alloc s.heap size.toNat = ⟨s.heap,0,argAsserted s.heap size.toNat⟩ := by
      rw [HeapAllocator.alloc]
      simp only [found]
    rw [nothing]
    exact ⟨⟨blocks,good⟩,held⟩
  | some e =>
    have member := List.mem_of_find?_eq_some found
    have room := fitting e found
    rw [good.shows.freeBlocks] at member
    obtain ⟨front,back,rfl⟩ := frees_split member
    rw [good.alloc (addressable buffer) positive found room]
    have split := good.split positive room
    have laid := good.shows.laid
    simp only [List.map_append,List.map_cons] at laid
    have low := (laid.bounds (show e ∈ _ by simp)).1
    have above := buffer.notNull
    have nonzero : e + 32 ≠ 0 := by omega
    have free : e ∉ s.heap.allocatedBlocks := by
      intro inUse
      have again : e ∈ used front ++ used back := by simpa using good.shows.allocatedBlocks.mem_iff.mp inUse
      exact used_apart laid.nodup again
    simp only [after,if_neg nonzero]
    refine ⟨⟨_,split⟩,⟨fun c => ?_,?_,fun p inLive => ?_⟩⟩
    · simp only [splitHeap,List.mem_cons,Prod.mk.injEq]
      constructor
      · rintro (rfl | old)
        · exact ⟨size.toNat,.inl ⟨rfl,rfl⟩⟩
        · obtain ⟨asked,inLive⟩ := (held.owned c).mp old
          exact ⟨asked,.inr inLive⟩
      · rintro ⟨asked,⟨same,_⟩ | inLive⟩
        · exact .inl (by omega)
        · exact .inr ((held.owned c).mpr ⟨asked,inLive⟩)
    · rw [List.map_cons,List.nodup_cons]
      refine ⟨fun again => ?_,held.distinct⟩
      obtain ⟨⟨_,asked⟩,inLive,rfl⟩ := List.mem_map.mp again
      exact free ((held.owned e).mpr ⟨asked,inLive⟩)
    · rcases List.mem_cons.mp inLive with rfl | old
      · simp only [splitHeap,stop,Int.add_sub_cancel,Function.update_self,raw]
        omega
      · have inUse := good.shows.allocatedBlocks.mem_iff.mp (held.entry old)
        rw [stop,good.split_frame positive room inUse]
        exact held.fits p old

theorem Sound.free (sound : s.Sound buffer) {ptr : Int} (frees : s.Frees (.free ptr)) :
    ∃ out, HeapAllocator.free s.heap ptr = some out ∧ out.asserted = true ∧ (s.after out (.free ptr)).Sound buffer := by
  by_cases null : ptr = 0
  · subst null
    refine ⟨⟨s.heap,0,true⟩,rfl,rfl,?_⟩
    rw [after,if_pos rfl]
    exact sound
  obtain ⟨⟨blocks,good⟩,held⟩ := sound
  obtain ⟨size,member⟩ := frees.resolve_left null
  obtain ⟨e,rfl⟩ : ∃ e, ptr = e + 32 := ⟨ptr - 32,by omega⟩
  have inUse := good.shows.allocatedBlocks.mem_iff.mp ((held.owned e).mpr ⟨size,member⟩)
  obtain ⟨front,back,rfl⟩ := used_split inUse
  obtain ⟨out,blocks',freed,asserted,good',kept,frame⟩ := good.free (addressable buffer)
  refine ⟨out,freed,asserted,⟨blocks',?_⟩,?_⟩
  · exact good'
  have laid := good.shows.laid
  simp only [List.map_append,List.map_cons] at laid
  have gone := used_apart laid.nodup
  have others (c : Int) : c ∈ out.heap.allocatedBlocks ↔ c ∈ s.heap.allocatedBlocks ∧ c ≠ e := by
    rw [good'.shows.allocatedBlocks.mem_iff,good.shows.allocatedBlocks.mem_iff,kept,used_append,used_used]
    simp only [List.mem_append,List.mem_cons] at gone ⊢
    constructor
    · rintro (early | late)
      · exact ⟨.inl early,fun same => gone (.inl (same ▸ early))⟩
      · exact ⟨.inr (.inr late),fun same => gone (.inr (same ▸ late))⟩
    · rintro ⟨early | same | late,differs⟩
      · exact .inl early
      · exact absurd same differs
      · exact .inr late
  rw [after,if_neg null]
  refine ⟨fun c => ?_,held.distinct.sublist (List.filter_sublist.map _),fun p inLive => ?_⟩
  · rw [others,held.owned]
    simp only [List.mem_filter,bne_iff_ne]
    constructor
    · rintro ⟨⟨asked,inLive⟩,differs⟩
      exact ⟨asked,inLive,by omega⟩
    · rintro ⟨asked,inLive,differs⟩
      exact ⟨⟨asked,inLive⟩,by omega⟩
  · obtain ⟨inLive,differs⟩ := List.mem_filter.mp inLive
    have still : p.1 - 32 ∈ out.heap.allocatedBlocks := by
      refine (others _).mpr ⟨held.entry inLive,?_⟩
      simp only [bne_iff_ne] at differs
      omega
    have inUse' := good'.shows.allocatedBlocks.mem_iff.mp still
    simp only [stop,frame _ inUse']
    exact held.fits p inLive

theorem Sound.perform (sound : s.Sound buffer) (event : Event) (allowed : s.Allowed buffer event) :
    ∃ s', s.perform event = some s' ∧ s'.Sound buffer := by
  cases event with
  | free ptr =>
    obtain ⟨out,freed,_,sound'⟩ := sound.free allowed.1
    exact ⟨_,by rw [Session.perform,outcome,freed,Option.map_some],sound'⟩
  | alloc size =>
    refine ⟨_,rfl,sound.alloc size fun e found => ?_⟩
    have member := List.mem_of_find?_eq_some found
    obtain ⟨⟨blocks,good⟩,_⟩ := sound
    have small : (size.toNat : Int) ≤ buffer.size := allowed.2 size rfl
    rw [good.shows.freeBlocks] at member
    have inside := frees_subset member
    obtain ⟨low,_,high⟩ := good.shows.laid.tiles.within inside
    have placed := good.shows.laid.placed e inside
    have header := placed.header
    have near := placed.near
    have notNull := buffer.notNull
    have addressable := buffer.addressable
    have sums : Sums size.toNat e := ⟨Int.natCast_nonneg _,by omega⟩
    exact (matchingSizePred_iff placed (by omega) (by omega) sums).mp (List.find?_some found)

/-- Whatever the program allocates and frees, the blocks tile the pool. -/
theorem each_tiled (memory : Int → Entry) (buffer : Buffer) (events : List Event)
    (allowed : Each perform (Allowed buffer) (begin memory buffer) events) :
    (begin memory buffer).Tiled buffer ∧
      Each perform (fun s event => ∃ s', s.perform event = some s' ∧ s'.Tiled buffer) (begin memory buffer) events := by
  have start := begin_sound memory buffer
  refine ⟨start.tiled,each_of_each (fun s event sound may => ?_) (fun s event s' sound may performed => ?_) start allowed⟩
  · obtain ⟨s',performed,sound'⟩ := sound.perform event may
    exact ⟨s',performed,sound'.tiled⟩
  · obtain ⟨s'',performed',sound''⟩ := sound.perform event may
    obtain rfl := Option.some.inj (performed.symm.trans performed')
    exact sound''

theorem each_tiled_once : (begin (fun _ => ⟨0,0⟩) ⟨4096,512,by decide,by decide,by decide,by decide⟩).Tiled
      ⟨4096,512,by decide,by decide,by decide,by decide⟩ ∧
    Each perform (fun s event => ∃ s', s.perform event = some s' ∧ s'.Tiled ⟨4096,512,by decide,by decide,by decide,by decide⟩)
      (begin (fun _ => ⟨0,0⟩) ⟨4096,512,by decide,by decide,by decide,by decide⟩) [.alloc 40,.free 4128] := by
  refine each_tiled _ _ _ ⟨⟨trivial,fun size same => ?_⟩,fun s allocated => ⟨⟨.inr ⟨40,?_⟩,nofun⟩,fun _ _ => trivial⟩⟩
  · cases same
    decide
  · cases allocated
    decide

end Session

end XivelyClient.HeapAllocator
