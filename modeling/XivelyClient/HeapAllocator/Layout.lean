import Mathlib.Data.Int.ConditionallyCompleteOrder
import Mathlib.Data.Int.Order.Basic
import Mathlib.Data.List.Chain
import Mathlib.Data.List.Induction
import Mathlib.Data.List.Nodup
import Mathlib.Data.List.Perm.Basic
import Mathlib.Order.ConditionallyCompleteLattice.Basic
import XivelyClient.HeapAllocator.StackAllocator
import XivelyClient.Lib.Runs
import XivelyClient.Lib.Tiling

/-! The blocks of the pool in the order of their addresses. They tile the pool, each with its header inside, and no two
neighbours are free; allocating splits a block in two, and freeing marks one and joins it with its free neighbours. -/
namespace XivelyClient.HeapAllocator
open Tiling

section Arithmetic

def roundUp (x : Int) : Int := x + 3 - (x + 3) % 4

theorem roundUp_spec (x : Int) : roundUp x % 4 = 0 ∧ x ≤ roundUp x ∧ roundUp x < x + 4 := by
  simp only [roundUp]
  omega

theorem intptr_eq {x : Int} (low : -2 ^ 63 ≤ x) (high : x < 2 ^ 63) : intptr x = x := by
  simp only [intptr]
  omega

theorem alignAddress_eq {x : Int} (low : 0 ≤ x) (high : x + 3 < 2 ^ 63) : alignAddress xiAlign x = roundUp x := by
  simp only [alignAddress,xiAlign,intptr,roundUp]
  omega

theorem external_eq {entry : Int} (aligned : entry % 4 = 0) (low : 0 ≤ entry) (high : entry + 35 < 2 ^ 63) :
    externalFromInternal extraSpaceSize xiAlign entry = entry + 32 := by
  simp only [externalFromInternal,alignAddress,xiAlign,extraSpaceSize,intptr]
  omega

theorem internal_eq {entry : Int} (aligned : entry % 4 = 0) (low : 0 < entry) (high : entry + 35 < 2 ^ 63) :
    internalFromExternal extraSpaceSize xiAlign (entry + 32) = entry := by
  simp only [internalFromExternal,alignAddress,xiAlign,extraSpaceSize,intptr]
  omega

theorem sizeT_eq {x : Int} (low : 0 ≤ x) (high : x < 2 ^ 64) : sizeT x = x := Int.emod_eq_of_lt low high

end Arithmetic

section Blocks

variable {memory : Int → Entry} {lo hi : Int} {front back : List Int} {e n : Int}

def raw (memory : Int → Entry) (e : Int) : Int := (memory e).rawAddress
def stop (memory : Int → Entry) (e : Int) : Int := (memory e).rawAddress + (memory e).size

/-- The header is aligned, and lies in its block. -/
structure Placed (memory : Int → Entry) (e : Int) : Prop where
  aligned : e % 4 = 0
  after : raw memory e ≤ e
  near : e < raw memory e + 4
  header : e + 32 ≤ stop memory e

structure Laid (lo hi : Int) (memory : Int → Entry) (entries : List Int) : Prop where
  tiles : Tiles (raw memory) (stop memory) lo entries hi
  placed : ∀ e ∈ entries, Placed memory e

theorem Laid.apart (laid : Laid lo hi memory (front ++ e :: back)) :
    (∀ c ∈ front, c < e ∧ stop memory c ≤ raw memory e) ∧ ∀ c ∈ back, e < c ∧ stop memory e ≤ raw memory c := by
  obtain ⟨_,behind,before⟩ := List.pairwise_append.mp laid.tiles.pairwise
  have own := laid.placed e (by simp)
  have ownHeader := own.header
  have ownAfter := own.after
  constructor
  · intro c member
    have order := before c member e (List.mem_cons_self ..)
    have header := (laid.placed c (by simp [member])).header
    exact ⟨by omega,order⟩
  · intro c member
    have order := (List.pairwise_cons.mp behind).1 c member
    have after := (laid.placed c (by simp [member])).after
    exact ⟨by omega,order⟩

theorem Laid.bounds (laid : Laid lo hi memory front) (member : e ∈ front) : lo ≤ e ∧ e + 32 ≤ stop memory e ∧ stop memory e ≤ hi := by
  obtain ⟨low,_,high⟩ := laid.tiles.within member
  have placed := laid.placed e member
  exact ⟨low.trans placed.after,placed.header,high⟩

theorem Laid.nodup (laid : Laid lo hi memory front) : front.Nodup := by
  refine laid.tiles.pairwise.imp_of_mem ?_
  rintro a b memberA memberB order rfl
  have proper := (laid.tiles.within memberA).2.1
  omega

/-- Headers of other blocks do not matter. -/
theorem Laid.other {memory' : Int → Entry} (laid : Laid lo hi memory front) (same : ∀ c ∈ front, memory' c = memory c) :
    Laid lo hi memory' front := by
  refine ⟨laid.tiles.congr fun c member => ?_,fun c member => ?_⟩
  · rw [raw,stop,same c member]
    exact ⟨rfl,rfl⟩
  · obtain ⟨aligned,after,near,header⟩ := laid.placed c member
    rw [raw,← same c member] at after near
    rw [stop,← same c member] at header
    exact ⟨aligned,after,near,header⟩

theorem laid_append {entries : List Int} : Laid lo hi memory (front ++ entries) ↔
    ∃ mid, Laid lo mid memory front ∧ Laid mid hi memory entries := by
  constructor
  · rintro ⟨tiles,placed⟩
    obtain ⟨mid,left,right⟩ := tiles_append.mp tiles
    exact ⟨mid,⟨left,fun c member => placed c (List.mem_append_left _ member)⟩,
      ⟨right,fun c member => placed c (List.mem_append_right _ member)⟩⟩
  · rintro ⟨mid,left,right⟩
    refine ⟨tiles_append.mpr ⟨mid,left.tiles,right.tiles⟩,fun c member => ?_⟩
    rcases List.mem_append.mp member with first | second
    · exact left.placed c first
    · exact right.placed c second

theorem laid_cons : Laid lo hi memory (e :: back) ↔ raw memory e = lo ∧ Placed memory e ∧ Laid (stop memory e) hi memory back := by
  constructor
  · rintro ⟨⟨first,_,tiles⟩,placed⟩
    exact ⟨first,placed e (List.mem_cons_self ..),tiles,fun c member => placed c (List.mem_cons_of_mem e member)⟩
  · rintro ⟨first,own,laid⟩
    have header := own.header
    have after := own.after
    refine ⟨⟨first,by omega,laid.tiles⟩,fun c member => ?_⟩
    rcases List.mem_cons.mp member with rfl | other
    · exact own
    · exact laid.placed c other

/-- A block with room for a second header is split. -/
theorem Laid.split (laid : Laid lo hi memory (front ++ e :: back)) {middle : Int} (inside : e + 32 ≤ middle)
    (room : roundUp middle + 32 ≤ stop memory e) :
    Laid lo hi (Function.update (Function.update memory (roundUp middle) ⟨middle,stop memory e - middle⟩) e
      ⟨raw memory e,middle - raw memory e⟩) (front ++ e :: roundUp middle :: back) := by
  obtain ⟨aligned,above,near⟩ := roundUp_spec middle
  obtain ⟨before,behind⟩ := laid.apart
  obtain ⟨mid,left,right⟩ := laid_append.mp laid
  obtain ⟨first,own,rest⟩ := laid_cons.mp right
  have apart : roundUp middle ≠ e := by omega
  refine laid_append.mpr ⟨mid,left.other fun c member => ?_,laid_cons.mpr ⟨?_,?_,laid_cons.mpr ⟨?_,?_,?_⟩⟩⟩
  · have order := before c member
    rw [Function.update_of_ne (by omega),Function.update_of_ne (by omega)]
  · simpa [raw] using first
  · exact ⟨own.aligned,by simpa [raw] using own.after,by simpa [raw] using own.near,by simp [stop,raw]; omega⟩
  · simp only [raw,stop,Function.update_of_ne apart,Function.update_self]
    omega
  · exact ⟨aligned,by simpa [raw,Function.update_of_ne apart] using above,by simpa [raw,Function.update_of_ne apart] using near,
      by simp only [stop,Function.update_of_ne apart,Function.update_self] at room ⊢; omega⟩
  · have ends : stop (Function.update (Function.update memory (roundUp middle) ⟨middle,stop memory e - middle⟩) e
        ⟨raw memory e,middle - raw memory e⟩) (roundUp middle) = stop memory e := by
      simp only [stop,Function.update_of_ne apart,Function.update_self]
      omega
    rw [ends]
    refine rest.other fun c member => ?_
    have order := behind c member
    have after := (rest.placed c member).after
    rw [Function.update_of_ne (by omega),Function.update_of_ne (by omega)]

/-- Two neighbours become one. -/
theorem Laid.join (laid : Laid lo hi memory (front ++ e :: n :: back)) :
    Laid lo hi (Function.update memory e ⟨raw memory e,(memory e).size + (memory n).size⟩) (front ++ e :: back) := by
  obtain ⟨before,behind⟩ := laid.apart
  obtain ⟨mid,left,right⟩ := laid_append.mp laid
  obtain ⟨first,own,rest⟩ := laid_cons.mp right
  obtain ⟨touches,other,far⟩ := laid_cons.mp rest
  have header := own.header
  have otherHeader := other.header
  have otherAfter := other.after
  have ends : stop (Function.update memory e ⟨raw memory e,(memory e).size + (memory n).size⟩) e = stop memory n := by
    simp only [stop,raw,Function.update_self] at touches ⊢
    omega
  refine laid_append.mpr ⟨mid,left.other fun c member => ?_,laid_cons.mpr ⟨?_,?_,?_⟩⟩
  · exact Function.update_of_ne (ne_of_lt (before c member).1) _ _
  · simpa [raw] using first
  · refine ⟨own.aligned,by simpa [raw] using own.after,by simpa [raw] using own.near,?_⟩
    rw [ends]
    omega
  · rw [ends]
    refine far.other fun c member => ?_
    exact Function.update_of_ne (ne_of_gt (behind c (List.mem_cons_of_mem n member)).1) _ _

end Blocks

section Free

variable {memory : Int → Entry} {lo hi : Int} {front back blocks : List (Int × Bool)} {e : Int}

def frees (blocks : List (Int × Bool)) : List Int := (blocks.filter (·.2)).map (·.1)
def used (blocks : List (Int × Bool)) : List Int := (blocks.filter (!·.2)).map (·.1)

@[simp] theorem frees_nil : frees [] = [] := rfl
@[simp] theorem used_nil : used [] = [] := rfl
@[simp] theorem frees_append : frees (front ++ back) = frees front ++ frees back := by simp [frees]
@[simp] theorem frees_free : frees ((e,true) :: back) = e :: frees back := rfl
@[simp] theorem frees_used : frees ((e,false) :: back) = frees back := rfl
@[simp] theorem used_append : used (front ++ back) = used front ++ used back := by simp [used]
@[simp] theorem used_free : used ((e,true) :: back) = used back := rfl
@[simp] theorem used_used : used ((e,false) :: back) = e :: used back := rfl

theorem frees_subset (member : e ∈ frees blocks) : e ∈ blocks.map (·.1) :=
  (List.filter_sublist.map _).subset member

theorem used_subset (member : e ∈ used blocks) : e ∈ blocks.map (·.1) :=
  (List.filter_sublist.map _).subset member

/-- No other block in use stands at the address of a block. -/
theorem used_apart (distinct : (front.map (·.1) ++ e :: back.map (·.1)).Nodup) : e ∉ used front ++ used back := by
  intro again
  rw [List.nodup_middle] at distinct
  refine (List.nodup_cons.mp distinct).1 ?_
  rcases List.mem_append.mp again with early | late
  · exact List.mem_append_left _ (used_subset early)
  · exact List.mem_append_right _ (used_subset late)

theorem frees_split (member : e ∈ frees blocks) : ∃ front back, blocks = front ++ (e,true) :: back := by
  obtain ⟨⟨_,_⟩,own,rfl⟩ := List.mem_map.mp member
  obtain ⟨inside,isFree⟩ := List.mem_filter.mp own
  obtain rfl : _ = true := isFree
  exact List.append_of_mem inside

theorem used_split (member : e ∈ used blocks) : ∃ front back, blocks = front ++ (e,false) :: back := by
  obtain ⟨⟨_,flag⟩,own,rfl⟩ := List.mem_map.mp member
  obtain ⟨inside,isUsed⟩ := List.mem_filter.mp own
  obtain rfl : flag = false := by simpa using isUsed
  exact List.append_of_mem inside

/-- What stands in front of the first free block is in use. -/
theorem frees_head (first : (frees blocks).head? = some e) : ∃ middle rest, blocks = middle ++ (e,true) :: rest ∧ frees middle = [] := by
  induction blocks with
  | nil => cases first
  | cons b blocks ih =>
    obtain ⟨x,flag⟩ := b
    cases flag with
    | true =>
      obtain rfl : x = e := Option.some.inj first
      exact ⟨[],blocks,rfl,rfl⟩
    | false =>
      obtain ⟨middle,rest,rfl,busy⟩ := ih first
      exact ⟨(x,false) :: middle,rest,rfl,busy⟩

theorem frees_last (last : (frees blocks).getLast? = some e) : ∃ rest middle, blocks = rest ++ (e,true) :: middle ∧ frees middle = [] := by
  induction blocks using List.reverseRecOn with
  | nil => cases last
  | append_singleton blocks b ih =>
    obtain ⟨x,flag⟩ := b
    cases flag with
    | true =>
      rw [frees_append,frees_free,List.getLast?_append] at last
      obtain rfl : x = e := Option.some.inj last
      exact ⟨blocks,[],rfl,rfl⟩
    | false =>
      rw [frees_append,frees_used] at last
      obtain ⟨rest,middle,rfl,busy⟩ := ih (by simpa [frees] using last)
      refine ⟨rest,middle ++ [(x,false)],by simp,?_⟩
      rw [frees_append,busy]
      rfl

/-- Two free blocks are never neighbours. -/
abbrev Coalesced (blocks : List (Int × Bool)) : Prop := blocks.IsChain fun a b => ¬(a.2 = true ∧ b.2 = true)

/-- The allocator's lists and headers show these blocks. -/
structure Shows (lo hi : Int) (heap : StackAllocator) (blocks : List (Int × Bool)) : Prop where
  laid : Laid lo hi heap.memory (blocks.map (·.1))
  freeBlocks : heap.freeBlocks = frees blocks
  allocatedBlocks : heap.allocatedBlocks.Perm (used blocks)

end Free

end XivelyClient.HeapAllocator
