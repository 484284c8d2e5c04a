import XivelyClient.HeapAllocator.Layout

/-! What the calls do to the blocks: an allocation splits the first block with room, and gives its first part away; a freed
block is put between its free neighbours and joined with those it touches. -/
namespace XivelyClient.HeapAllocator
open Tiling

section ListOperations

variable {front back : List Int} {e n : Int}

theorem erase_middle (fresh : e ∉ front) : (front ++ e :: back).erase e = front ++ back := by
  rw [List.erase_append_right _ fresh,List.erase_cons_head]

theorem listRelocate_middle (fresh : e ∉ front) (apart : n ≠ e) : listRelocate (front ++ e :: back) e n = some (front ++ n :: back) := by
  rw [listRelocate,if_neg apart,if_pos (by simp),List.replace_append_right fresh,List.replace_cons_self]

theorem nodeNext_middle (fresh : e ∉ front) : nodeNext e (front ++ e :: back) = back.head? := by
  induction front with
  | nil => simp [nodeNext]
  | cons a front ih =>
    have differs : a ≠ e := fun same => fresh (same ▸ List.mem_cons_self ..)
    rw [List.cons_append,nodeNext,if_neg differs]
    exact ih fun member => fresh (List.mem_cons_of_mem a member)

theorem listInsertBehind_middle (fresh : e ∉ front) : listInsertBehind n e (front ++ e :: back) = front ++ e :: n :: back := by
  induction front with
  | nil => simp [listInsertBehind]
  | cons a front ih =>
    have differs : a ≠ e := fun same => fresh (same ▸ List.mem_cons_self ..)
    rw [List.cons_append,listInsertBehind,if_neg differs,ih fun member => fresh (List.mem_cons_of_mem a member)]
    rfl

/-- A node goes behind the last one of the first part, and its `next` is then linked from there. -/
theorem listInsertAfter_spot (nodup : (front ++ back).Nodup) :
    listInsertAfter (front ++ back) n front.getLast? = front ++ n :: back ∧
      ∀ prev, front.getLast? = some prev → nodeNext prev (front ++ n :: back) = some n := by
  induction front using List.reverseRecOn with
  | nil => exact ⟨rfl,nofun⟩
  | append_singleton front p _ =>
    have fresh : p ∉ front := by
      have apart := (List.nodup_append.mp (List.nodup_append.mp nodup).1).2.2
      exact fun member => apart p member p (List.mem_singleton_self p) rfl
    simp only [List.getLast?_append,List.getLast?_singleton,Option.some_or,List.append_assoc,List.singleton_append]
    refine ⟨listInsertBehind_middle fresh,fun prev same => ?_⟩
    obtain rfl := Option.some.inj same
    exact nodeNext_middle fresh

/-- The search stops between the blocks below the new one and those above it. -/
theorem findSpotFrom_spot {memory : Int → Entry} {prev : Option Int} (below : ∀ f ∈ front, raw memory f < raw memory e)
    (above : ∀ f ∈ back, raw memory e < raw memory f) (prevBelow : ∀ p, prev = some p → raw memory p < raw memory e)
    (some_slot : prev ≠ none ∨ front ++ back ≠ []) :
    findSpotFrom (listInsertSortPred memory e) prev (front ++ back) = some (front.getLast?.or prev,back.head?) := by
  induction front generalizing prev with
  | nil =>
    cases back with
    | nil =>
      obtain ⟨p,rfl⟩ := Option.ne_none_iff_exists'.mp (some_slot.resolve_right (by simp))
      have low : (memory p).rawAddress < (memory e).rawAddress := prevBelow p rfl
      simp [findSpotFrom,listInsertSortPred,low]
    | cons f back =>
      have high : (memory e).rawAddress < (memory f).rawAddress := above f (List.mem_cons_self ..)
      cases prev with
      | none => simp [findSpotFrom,listInsertSortPred,high]
      | some p =>
        have low : (memory p).rawAddress < (memory e).rawAddress := prevBelow p rfl
        simp [findSpotFrom,listInsertSortPred,high,low]
  | cons f front ih =>
    have low : (memory f).rawAddress < (memory e).rawAddress := below f (List.mem_cons_self ..)
    have passes : listInsertSortPred memory e prev (some f) = false := by
      cases prev with
      | none => simp [listInsertSortPred,low.le]
      | some p => simp [listInsertSortPred,low.le]
    have onward := ih (fun g member => below g (List.mem_cons_of_mem f member))
      (fun p same => Option.some.inj same ▸ below f (List.mem_cons_self ..)) (.inl (Option.some_ne_none f))
    rw [List.cons_append,findSpotFrom,passes,if_neg Bool.false_ne_true,onward]
    cases ends : front.getLast? with
    | none => simp [List.getLast?_cons,ends]
    | some last => simp [List.getLast?_cons,ends]

end ListOperations

variable {lo hi : Int} {heap : StackAllocator} {front back blocks : List (Int × Bool)} {a b e : Int}

/-- The pool lies where the addresses of a process are. -/
structure Addressable (lo hi : Int) : Prop where
  low : 0 < lo
  high : hi ≤ 2 ^ 61

section Merging

theorem Shows.nodup_frees (shows : Shows lo hi heap blocks) : (frees blocks).Nodup :=
  shows.laid.nodup.sublist (List.filter_sublist.map _)

theorem touching_iff {memory : Int → Entry} (low : 0 ≤ raw memory a) (size : raw memory a ≤ stop memory a) (high : stop memory a ≤ 2 ^ 61) :
    touching memory a b = true ↔ stop memory a = raw memory b := by
  rw [stop,raw] at size
  rw [stop] at high
  rw [raw] at low
  rw [touching,intptr_eq (x := (memory a).size) (by omega) (by omega),intptr_eq (by omega) (by omega),beq_iff_eq]
  rfl

theorem Shows.absorb (shows : Shows lo hi heap (front ++ (a,true) :: (b,true) :: back)) (range : Addressable lo hi) :
    ∃ heap', HeapAllocator.absorb heap a b = some heap' ∧ Shows lo hi heap' (front ++ (a,true) :: back) ∧
      heap'.allocatedBlocks = heap.allocatedBlocks ∧ (∀ c, c ≠ a → heap'.memory c = heap.memory c) ∧
        raw heap'.memory a = raw heap.memory a := by
  have laid := shows.laid
  simp only [List.map_append,List.map_cons] at laid
  have nodup := shows.nodup_frees
  have listed := shows.freeBlocks
  rw [frees_append,frees_free,frees_free] at nodup listed
  have fresh : b ∉ frees front ++ [a] := by
    rw [List.append_cons] at nodup
    have apart := (List.nodup_append.mp nodup).2.2
    exact fun member => apart b member b (List.mem_cons_self ..) rfl
  have removed : listRemove heap.freeBlocks b = some (frees front ++ a :: frees back) := by
    rw [listRemove,listed,if_pos (by simp),List.append_cons,erase_middle fresh]
    simp
  have first := laid.bounds (show a ∈ _ by simp)
  have second := laid.bounds (show b ∈ _ by simp)
  have firstRaw := laid.tiles.within (show a ∈ _ by simp)
  have secondRaw := laid.tiles.within (show b ∈ _ by simp)
  have low := range.low
  have high := range.high
  have total : sizeT ((heap.memory a).size + (heap.memory b).size) = (heap.memory a).size + (heap.memory b).size := by
    simp only [stop,raw] at first second firstRaw secondRaw
    exact sizeT_eq (by omega) (by omega)
  have absorbed : HeapAllocator.absorb heap a b = some {heap with
      freeBlocks := frees front ++ a :: frees back
      memory := Function.update heap.memory a ⟨raw heap.memory a,(heap.memory a).size + (heap.memory b).size⟩} := by
    rw [HeapAllocator.absorb,removed,total]
    rfl
  refine ⟨_,absorbed,⟨?_,?_,?_⟩,rfl,fun c differs => ?_,?_⟩
  · rw [List.map_append,List.map_cons]
    exact laid.join
  · rw [frees_append,frees_free]
  · simpa using shows.allocatedBlocks
  · exact Function.update_of_ne differs _ _
  · simp [raw]

theorem Shows.touching (shows : Shows lo hi heap (front ++ (a,true) :: (blocks ++ (b,true) :: back))) (range : Addressable lo hi) :
    touching heap.memory a b = true ↔ blocks = [] := by
  have laid := shows.laid
  simp only [List.map_append,List.map_cons] at laid
  obtain ⟨low,proper,high⟩ := laid.tiles.within (show a ∈ _ by simp)
  have above := range.low
  have below := range.high
  rw [touching_iff (by omega) proper.le (by omega),laid.tiles.touch,List.map_eq_nil_iff]

theorem coalesced_flag {flag : Bool} (chain : Coalesced ((b,flag) :: back)) : Coalesced ((a,flag) :: back) := by
  cases back with
  | nil => exact List.isChain_singleton _
  | cons c back =>
    obtain ⟨first,rest⟩ := List.isChain_cons_cons.mp chain
    exact List.isChain_cons_cons.mpr ⟨first,rest⟩

/-- A free block in front of one that is in use, or of nothing. -/
theorem coalesced_cons (chain : Coalesced back) (busy : ∀ b, back.head? = some b → b.2 = false) : Coalesced ((a,true) :: back) := by
  cases back with
  | nil => exact List.isChain_singleton _
  | cons b back =>
    refine List.isChain_cons_cons.mpr ⟨?_,chain⟩
    rw [busy b rfl]
    simp

theorem Shows.mergeNext (shows : Shows lo hi heap (front ++ (e,true) :: back)) (range : Addressable lo hi) (chain : Coalesced back) :
    ∃ heap' back', HeapAllocator.mergeNext heap e (frees back).head? = some heap' ∧ Shows lo hi heap' (front ++ (e,true) :: back') ∧
      Coalesced ((e,true) :: back') ∧ used back' = used back ∧ heap'.allocatedBlocks = heap.allocatedBlocks ∧
        ∀ c, c ≠ e → heap'.memory c = heap.memory c := by
  cases next : (frees back).head? with
  | none =>
    refine ⟨heap,back,rfl,shows,coalesced_cons chain fun b first => ?_,rfl,rfl,fun _ _ => rfl⟩
    obtain ⟨x,flag⟩ := b
    cases flag with
    | false => rfl
    | true =>
      obtain ⟨rest,rfl⟩ : ∃ rest, back = (x,true) :: rest := List.head?_eq_some_iff.mp first
      cases next
  | some n =>
    obtain ⟨middle,rest,rfl,busy⟩ := frees_head next
    have touches := shows.touching range
    rw [HeapAllocator.mergeNext]
    cases middle with
    | nil =>
      obtain ⟨heap',absorbed,shows',allocated,frame,_⟩ := shows.absorb range
      rw [if_pos (touches.mpr rfl)]
      exact ⟨heap',rest,absorbed,shows',coalesced_flag chain,rfl,allocated,frame⟩
    | cons m middle =>
      rw [if_neg (mt touches.mp (List.cons_ne_nil m middle))]
      refine ⟨heap,_,rfl,shows,coalesced_cons chain fun b first => ?_,rfl,rfl,fun _ _ => rfl⟩
      obtain ⟨x,flag⟩ := m
      obtain rfl : (x,flag) = b := Option.some.inj first
      cases flag with
      | false => rfl
      | true => cases busy

theorem Shows.mergePrev (shows : Shows lo hi heap (front ++ (e,true) :: back)) (range : Addressable lo hi) (before : Coalesced front)
    (after : Coalesced ((e,true) :: back)) :
    ∃ heap' blocks', HeapAllocator.mergePrev heap e (frees front).getLast? = some heap' ∧ Shows lo hi heap' blocks' ∧
      Coalesced blocks' ∧ used blocks' = used front ++ used back ∧ frees blocks' ≠ [] ∧ heap'.allocatedBlocks = heap.allocatedBlocks ∧
        ∀ c ∈ used blocks', heap'.memory c = heap.memory c := by
  cases prev : (frees front).getLast? with
  | none =>
    refine ⟨heap,_,rfl,shows,before.append after fun b last c first => ?_,by simp,by simp,rfl,fun _ _ => rfl⟩
    obtain ⟨x,flag⟩ := b
    obtain ⟨rest,rfl⟩ : ∃ rest, front = rest ++ [(x,flag)] := List.getLast?_eq_some_iff.mp last
    cases flag with
    | false => simp
    | true => simp at prev
  | some p =>
    obtain ⟨rest,middle,rfl,busy⟩ := frees_last prev
    rw [List.append_assoc,List.cons_append] at shows
    have touches := shows.touching range
    rw [HeapAllocator.mergePrev]
    cases middle with
    | nil =>
      obtain ⟨heap',absorbed,shows',allocated,frame,_⟩ := shows.absorb range
      rw [if_pos (touches.mpr rfl)]
      refine ⟨heap',_,absorbed,shows',?_,by simp,by simp,allocated,fun c member => frame c ?_⟩
      · exact List.isChain_split.mpr ⟨before,coalesced_flag after⟩
      · rintro rfl
        have distinct := shows'.laid.nodup
        rw [List.map_append,List.map_cons] at distinct
        rw [used_append,used_free] at member
        exact used_apart distinct member
    | cons m middle =>
      rw [if_neg (mt touches.mp (List.cons_ne_nil m middle))]
      have parts : used (rest ++ (p,true) :: (m :: middle ++ (e,true) :: back)) = used (rest ++ (p,true) :: m :: middle) ++ used back := by
        rw [used_append,used_free,used_append,used_free,used_append,used_free,List.append_assoc]
      refine ⟨heap,_,rfl,shows,?_,parts,by simp,rfl,fun _ _ => rfl⟩
      rw [← List.cons_append,← List.append_assoc]
      refine before.append after fun b last c first => ?_
      obtain ⟨init,x,split⟩ := List.eq_nil_or_concat (m :: middle) |>.resolve_left (List.cons_ne_nil m middle)
      rw [split,List.concat_eq_append] at last busy
      obtain ⟨y,flag⟩ := x
      cases flag with
      | true => simp at busy
      | false =>
        rw [← List.cons_append,← List.append_assoc,List.getLast?_concat] at last
        obtain rfl := Option.some.inj last
        simp

end Merging

/-- The blocks between two calls. -/
structure Good (lo hi : Int) (heap : StackAllocator) (blocks : List (Int × Bool)) : Prop where
  shows : Shows lo hi heap blocks
  chain : Coalesced blocks
  slot : heap.freeBlocks ≠ []

section Freeing

theorem Good.sorted (good : Good lo hi heap blocks) : heap.freeBlocks.Pairwise fun a b => raw heap.memory a < raw heap.memory b := by
  rw [good.shows.freeBlocks]
  have order := good.shows.laid.tiles.pairwise.imp_of_mem (S := fun a b => raw heap.memory a < raw heap.memory b)
    fun memberA _ behind => (good.shows.laid.tiles.within memberA).2.1.trans_le behind
  exact order.sublist (List.filter_sublist.map _)

theorem Good.apart (good : Good lo hi heap (front ++ (e,false) :: back)) :
    (∀ f ∈ frees front, raw heap.memory f < raw heap.memory e) ∧ ∀ f ∈ frees back, raw heap.memory e < raw heap.memory f := by
  have laid := good.shows.laid
  simp only [List.map_append,List.map_cons] at laid
  obtain ⟨before,behind⟩ := laid.apart
  have proper := (laid.tiles.within (show e ∈ _ by simp)).2.1
  constructor
  · intro f member
    have own := (laid.tiles.within (List.mem_append_left _ (frees_subset member))).2.1
    have order := (before f (frees_subset member)).2
    omega
  · intro f member
    have order := (behind f (frees_subset member)).2
    omega

theorem Good.free (good : Good lo hi heap (front ++ (e,false) :: back)) (range : Addressable lo hi) :
    ∃ out blocks', HeapAllocator.free heap (e + 32) = some out ∧ out.asserted = true ∧ Good lo hi out.heap blocks' ∧
      used blocks' = used front ++ used back ∧ ∀ c ∈ used blocks', out.heap.memory c = heap.memory c := by
  have laid := good.shows.laid
  simp only [List.map_append,List.map_cons] at laid
  obtain ⟨low,header,high⟩ := laid.bounds (show e ∈ _ by simp)
  have above := range.low
  have below := range.high
  have entry : internalFromExternal extraSpaceSize xiAlign (e + 32) = e :=
    internal_eq (laid.placed e (by simp)).aligned (by omega) (by omega)
  -- it leaves the list of the blocks in use
  have member : e ∈ heap.allocatedBlocks := good.shows.allocatedBlocks.mem_iff.mpr (by simp)
  have listed := good.shows.freeBlocks
  rw [frees_append,frees_used] at listed
  have removed : listRemove heap.allocatedBlocks e = some (heap.allocatedBlocks.erase e) := if_pos member
  have slot : heap.freeBlocks.isEmpty = false := by simpa using good.slot
  -- it enters the free list at its address
  obtain ⟨under,above⟩ := good.apart
  have first : ∀ p, (none : Option Int) = some p → raw heap.memory p < raw heap.memory e := nofun
  have spot := findSpotFrom_spot under above first (.inr (listed ▸ good.slot))
  rw [← listed,Option.or_none] at spot
  have nodup := good.shows.nodup_frees
  rw [frees_append,frees_used] at nodup
  obtain ⟨inserted,linked⟩ := listInsertAfter_spot (n := e) nodup
  rw [← listed] at inserted
  have middle : Shows lo hi ⟨heap.memory,frees front ++ e :: frees back,heap.allocatedBlocks.erase e⟩ (front ++ (e,true) :: back) := by
    refine ⟨by simpa using good.shows.laid,by simp,?_⟩
    have order : (used (front ++ (e,false) :: back)).Perm (e :: used (front ++ (e,true) :: back)) := by
      simp only [used_append,used_used,used_free]
      exact List.perm_middle
    have erased := (good.shows.allocatedBlocks.trans order).erase e
    rwa [List.erase_cons_head] at erased
  -- and is joined with its neighbours
  have chainBack : Coalesced back := (good.chain.right_of_append).tail
  obtain ⟨heap1,back1,merged1,shows1,chain1,used1,allocated1,frame1⟩ := middle.mergeNext range chainBack
  obtain ⟨heap2,blocks2,merged2,shows2,chain2,used2,free2,allocated2,frame2⟩ := shows1.mergePrev range good.chain.left_of_append chain1
  have merged : mergeAround ⟨heap.memory,frees front ++ e :: frees back,heap.allocatedBlocks.erase e⟩ (frees front).getLast? e
      (frees back).head? = heap2 := by
    rw [mergeAround,merged1]
    simp only [merged2,Option.getD_some]
  have ascends : sizeT (extraSpaceSize - 1) ≤ sizeT (e + 32) := by
    simp only [sizeT,extraSpaceSize]
    omega
  have nonzero : e + 32 ≠ 0 := by omega
  refine ⟨⟨heap2,0,true⟩,blocks2,?_,rfl,⟨shows2,chain2,?_⟩,used2.trans (by rw [used1]),fun c inUse => ?_⟩
  · rw [HeapAllocator.free,if_neg nonzero,entry]
    simp only [removed,slot,spot,Bool.false_eq_true,if_false,Option.map_some,inserted,merged,ascends,decide_true,Bool.true_and]
    cases last : (frees front).getLast? with
    | none => rfl
    | some prev => simp [linked prev last]
  · rw [shows2.freeBlocks]
    exact free2
  · have differs : c ≠ e := by
      rintro rfl
      rw [used2,used1] at inUse
      exact used_apart laid.nodup inUse
    exact (frame2 c inUse).trans (frame1 c differs)

end Freeing

section Allocating

variable {size : Int}

/-- The sums of the fit test stay in the range of an address. -/
def Sums (size e : Int) : Prop := 0 ≤ size ∧ e + size + 67 < 2 ^ 63

/-- Room for the aligned header, the size asked for and the header of the rest. -/
def Room (memory : Int → Entry) (size e : Int) : Prop := roundUp (e + 32 + size) + 32 < stop memory e

theorem newFreeUnaligned_eq (aligned : e % 4 = 0) (low : 0 < e) (sums : Sums size e) : newFreeUnaligned size e = e + 32 + size := by
  obtain ⟨positive,below⟩ := sums
  rw [newFreeUnaligned,external_eq aligned low.le (by omega),intptr_eq (by omega) (by omega)]

theorem newFreeAligned_eq (aligned : e % 4 = 0) (low : 0 < e) (sums : Sums size e) : newFreeAligned size e = roundUp (e + 32 + size) := by
  obtain ⟨positive,below⟩ := sums
  rw [newFreeAligned,newFreeUnaligned_eq aligned low ⟨positive,below⟩,alignAddress_eq (by omega) (by omega)]

/-- Where its sums do not wrap, the fit test is exact. -/
theorem matchingSizePred_iff {memory : Int → Entry} (placed : Placed memory e) (low : 0 < raw memory e) (high : stop memory e ≤ 2 ^ 61)
    (sums : Sums size e) : matchingSizePred memory size e = true ↔ Room memory size e := by
  have above := placed.after
  have header := placed.header
  have unaligned := newFreeUnaligned_eq placed.aligned (by omega) sums
  have aligned := newFreeAligned_eq placed.aligned (by omega) sums
  obtain ⟨rounded,least,near⟩ := roundUp_spec (e + 32 + size)
  obtain ⟨positive,below⟩ := sums
  have ends : externalFromInternal extraSpaceSize xiAlign (roundUp (e + 32 + size)) = roundUp (e + 32 + size) + 32 :=
    external_eq rounded (by omega) (by omega)
  rw [newFreeUnaligned] at unaligned
  rw [newFreeAligned,newFreeUnaligned] at aligned
  rw [matchingSizePred]
  simp only [aligned,ends,decide_eq_true_eq,Room]
  rw [intptr_eq (show -2 ^ 63 ≤ _ by rw [stop] at header; omega) (show _ < 2 ^ 63 by rw [stop] at high; omega)]
  rfl

/-- What an allocation from a block leaves. -/
def splitHeap (heap : StackAllocator) (size e : Int) (frontFree backFree : List Int) : StackAllocator :=
  ⟨Function.update (Function.update heap.memory (roundUp (e + 32 + size)) ⟨e + 32 + size,stop heap.memory e - (e + 32 + size)⟩) e
    ⟨raw heap.memory e,e + 32 + size - raw heap.memory e⟩,frontFree ++ roundUp (e + 32 + size) :: backFree,e :: heap.allocatedBlocks⟩

theorem Good.split (good : Good lo hi heap (front ++ (e,true) :: back)) (positive : 0 ≤ size) (room : Room heap.memory size e) :
    Good lo hi (splitHeap heap size e (frees front) (frees back)) (front ++ (e,false) :: (roundUp (e + 32 + size),true) :: back) := by
  refine ⟨⟨?_,by simp [splitHeap],?_⟩,?_,by simp [splitHeap]⟩
  · have laid := good.shows.laid
    simp only [List.map_append,List.map_cons] at laid ⊢
    exact laid.split (by omega) (le_of_lt room)
  · have order : (used (front ++ (e,false) :: (roundUp (e + 32 + size),true) :: back)).Perm (e :: used (front ++ (e,true) :: back)) := by
      simp only [used_append,used_used,used_free]
      exact List.perm_middle
    exact (good.shows.allocatedBlocks.cons e).trans order.symm
  · obtain ⟨before,after⟩ := List.isChain_split.mp good.chain
    refine List.isChain_append.mpr ⟨good.chain.left_of_append,List.isChain_cons_cons.mpr ⟨by simp,coalesced_flag after⟩,?_⟩
    intro x _ y first
    obtain rfl := Option.some.inj first
    simp

/-- The headers of the blocks in use stay. -/
theorem Good.split_frame (good : Good lo hi heap (front ++ (e,true) :: back)) (positive : 0 ≤ size) (room : Room heap.memory size e)
    {c : Int} (member : c ∈ used (front ++ (e,true) :: back)) :
    (splitHeap heap size e (frees front) (frees back)).memory c = heap.memory c := by
  have laid := good.shows.laid
  simp only [List.map_append,List.map_cons] at laid
  obtain ⟨before,behind⟩ := laid.apart
  obtain ⟨rounded,least,near⟩ := roundUp_spec (e + 32 + size)
  have roomy : roundUp (e + 32 + size) + 32 < stop heap.memory e := room
  have outside : c ≠ e ∧ c ≠ roundUp (e + 32 + size) := by
    rw [used_append,used_free] at member
    rcases List.mem_append.mp member with early | late
    · have order := before c (used_subset early)
      omega
    · have order := behind c (used_subset late)
      have after := (laid.placed c (by simp [used_subset late])).after
      omega
  simp only [splitHeap,Function.update_of_ne outside.1,Function.update_of_ne outside.2]

theorem Good.alloc (good : Good lo hi heap (front ++ (e,true) :: back)) (range : Addressable lo hi) (positive : 0 ≤ size)
    (found : heap.freeBlocks.find? (matchingSizePred heap.memory size) = some e) (room : Room heap.memory size e) :
    HeapAllocator.alloc heap size =
      ⟨splitHeap heap size e (frees front) (frees back),e + 32,size != 0 && (frees back).isEmpty⟩ := by
  have laid := good.shows.laid
  simp only [List.map_append,List.map_cons] at laid
  obtain ⟨low,header,high⟩ := laid.bounds (show e ∈ _ by simp)
  have within := laid.tiles.within (show e ∈ _ by simp)
  have placed := laid.placed e (by simp)
  have above := range.low
  have below := range.high
  obtain ⟨rounded,least,near⟩ := roundUp_spec (e + 32 + size)
  have roomy : roundUp (e + 32 + size) + 32 < stop heap.memory e := room
  have sums : Sums size e := ⟨positive,by omega⟩
  have unaligned := newFreeUnaligned_eq placed.aligned (by omega) sums
  have aligned := newFreeAligned_eq placed.aligned (by omega) sums
  have apart : roundUp (e + 32 + size) ≠ e := by omega
  have nodup := good.shows.nodup_frees
  have listed := good.shows.freeBlocks
  rw [frees_append,frees_free] at nodup listed
  have fresh : e ∉ frees front := fun member => (List.nodup_append.mp nodup).2.2 e member e (List.mem_cons_self ..) rfl
  have relocated : listRelocate heap.freeBlocks e (roundUp (e + 32 + size)) = some (frees front ++ roundUp (e + 32 + size) :: frees back) := by
    rw [listed]
    exact listRelocate_middle fresh apart
  have newFresh : roundUp (e + 32 + size) ∉ frees front := by
    intro member
    have order := (laid.apart.1 _ (frees_subset member)).1
    omega
  have restSize : sizeT ((heap.memory e).rawAddress + (heap.memory e).size - (e + 32 + size)) = stop heap.memory e - (e + 32 + size) := by
    rw [stop] at roomy high ⊢
    exact sizeT_eq (by omega) (by omega)
  have takenSize : sizeT ((heap.memory e).size - (stop heap.memory e - (e + 32 + size))) = e + 32 + size - raw heap.memory e := by
    have own := placed.after
    rw [stop,raw] at *
    rw [sizeT_eq (by omega) (by omega)]
    omega
  have taken : (heap.memory e).rawAddress + (e + 32 + size - raw heap.memory e) = e + 32 + size := by
    rw [raw]
    omega
  have whole : e + 32 + size + (stop heap.memory e - (e + 32 + size)) = stop heap.memory e := by omega
  have called : argAsserted heap size = (size != 0) := by
    rw [argAsserted,listed]
    simp
  rw [HeapAllocator.alloc]
  simp only [found,aligned,unaligned,relocated,restSize,takenSize,taken,whole,called,nodeNext_middle newFresh,beq_self_eq_true,Bool.and_true,
    external_eq placed.aligned (show 0 ≤ e by omega) (show e + 35 < 2 ^ 63 by omega)]
  refine congrArg (fun rest => Outcome.mk _ _ (size != 0 && rest)) ?_
  cases next : (frees back).head? with
  | none => rw [List.head?_eq_none_iff.mp next]; rfl
  | some n =>
    -- the next free block is behind one that is in use
    have some_free : frees back ≠ [] := by
      rintro nothing
      rw [nothing] at next
      cases next
    obtain ⟨middle,rest,rfl,busy⟩ := frees_head next
    simp only [List.map_append,List.map_cons] at laid
    have proper := laid.tiles.touch
    have differs : stop heap.memory e ≠ raw heap.memory n := by
      rw [Ne,proper,List.map_eq_nil_iff]
      rintro rfl
      have chain := (List.isChain_split.mp good.chain).2
      exact (List.isChain_cons_cons.mp chain).1 ⟨rfl,rfl⟩
    obtain ⟨_,behind⟩ := laid.apart
    obtain ⟨order,order'⟩ := behind n (by simp)
    have nextPlaced := laid.placed n (by simp)
    have nextBounds := laid.tiles.within (show n ∈ _ by simp)
    have after := nextPlaced.after
    rw [List.isEmpty_eq_false_iff.mpr some_free]
    simp only [Function.update_of_ne (show n ≠ e by omega),Function.update_of_ne (show n ≠ roundUp (e + 32 + size) by omega)]
    rw [beq_eq_false_iff_ne,sizeT_eq (by omega) (by omega)]
    change _ ≠ sizeT (raw heap.memory n)
    rw [sizeT_eq (by omega) (by omega)]
    exact differs

end Allocating

end XivelyClient.HeapAllocator
