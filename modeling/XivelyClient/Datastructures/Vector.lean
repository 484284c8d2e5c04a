import XivelyClient.DataDesc
import XivelyClient.Lib.Runs
import XivelyClient.Lib.SwapDelete

/-! The vector (`xi_vector.c`). A call whose assertion fails, or that leaves the block of the vector, has no result. -/
namespace XivelyClient

universe u

/-- A value of `xi_vector_index_type_t`, a signed byte, from an `int`. -/
def indexType (n : Int) : Int := (n + 128) % 256 - 128

/-- `xi_vector_t`; the block that `array` points to is a list of its elements. -/
structure XiVector (α : Type u) where
  array : List α
  elemNo : Int
  capacity : Int
  memoryType : MemoryType
  deriving DecidableEq, Repr

namespace XiVector

variable {α : Type u} [Inhabited α]

def defaultCapacity : Int := 2

/-- The size is a `size_t`, so what a negative number of elements needs is never there. -/
def realloc (vector : XiVector α) (newSize : Int) (alloc : Bool) : Option (Bool × XiVector α) :=
  if newSize ≠ 0 ∧ newSize ≠ vector.capacity then
    if vector.memoryType ≠ .managed then some (false,vector)
    else if alloc ∧ 0 < newSize then
      if 0 < vector.elemNo ∧ (newSize < vector.elemNo ∨ vector.array.length < vector.elemNo) then none
      else some (true,{vector with
        array := vector.array.take vector.elemNo.toNat ++ List.replicate (newSize - max vector.elemNo 0).toNat default
        capacity := newSize})
    else some (false,vector)
  else none

/-- The vector is `none` where memory lacks. -/
def create (alloc allocArray : Bool) : Option (Option (XiVector α)) :=
  if alloc then
    (realloc {array := [],elemNo := 0,capacity := 0,memoryType := .managed} defaultCapacity allocArray).map fun (done,vector) =>
      if done then some vector else none
  else some none

/-- `len` is a `size_t`. -/
def createFrom (array : List α) (memoryType : MemoryType) (alloc : Bool) : Option (Option (XiVector α)) :=
  if 0 < array.length then
    if alloc then
      some (some {array := array,elemNo := indexType array.length,capacity := indexType array.length,memoryType := memoryType})
    else some none
  else none

def reserve (vector : XiVector α) (n : Int) (alloc : Bool) : Option (Bool × XiVector α) :=
  if 0 < n then
    if n = vector.capacity then some (true,vector)
    else realloc (if n < vector.elemNo then {vector with elemNo := n} else vector) n alloc
  else none

/-- A write to one element of the block. -/
def write (vector : XiVector α) (index : Int) (value : α) : Option (XiVector α) :=
  if 0 ≤ index ∧ index < vector.array.length then some {vector with array := vector.array.set index.toNat value} else none

/-- The answer says whether there is an element. -/
def push (vector : XiVector α) (value : α) (alloc : Bool) : Option (Bool × XiVector α) :=
  (if vector.capacity < vector.elemNo + 1 then vector.realloc (indexType (vector.capacity * 2)) alloc else some (true,vector)).bind
    fun (done,vector) =>
      if done then
        (vector.write vector.elemNo value).map fun vector => (true,{vector with elemNo := indexType (vector.elemNo + 1)})
      else some (false,vector)

def swapElems (vector : XiVector α) (i0 i1 : Int) : Option (XiVector α) :=
  if 0 ≤ i0 ∧ 0 ≤ i1 ∧ i0 ≤ vector.elemNo - 1 ∧ i1 ≤ vector.elemNo - 1 then
    match vector.array[i0.toNat]?,vector.array[i1.toNat]? with
    | some e0,some e1 => some {vector with array := (vector.array.set i0.toNat e1).set i1.toNat e0}
    | _,_ => none
  else none

def del (vector : XiVector α) (index : Int) : Option (XiVector α) :=
  if 0 ≤ index ∧ 0 < vector.elemNo ∧ index < vector.elemNo then
    (if index ≠ vector.elemNo - 1 then vector.swapElems index (vector.elemNo - 1) else some vector).bind fun vector =>
      (vector.write (vector.elemNo - 1) default).map fun vector => {vector with elemNo := vector.elemNo - 1}
  else none

/-- The first index from `i` on at which the comparison is 0, or -1. -/
def findFrom (cmp : α → Bool) : Int → List α → Int
  | _,[] => -1
  | i,e :: rest => if cmp e then i else findFrom cmp (i + 1) rest

def find (vector : XiVector α) (cmp : α → Bool) : Option Int :=
  if vector.elemNo ≤ vector.array.length then some (findFrom cmp 0 (vector.array.take vector.elemNo.toNat)) else none

/-- `NULL`, the zero of the elements, for an index outside. -/
def get (vector : XiVector α) (index : Int) : Option α :=
  if vector.elemNo ≤ index ∨ index < 0 then some default else vector.array[index.toNat]?

inductive Call (α : Type u)
  | push (value : α) (alloc : Bool)
  | del (index : Int8)
  | swapElems (i0 i1 : Int8)
  | reserve (n : Int8) (alloc : Bool)
  deriving DecidableEq, Repr

/-- A call, and whether it reports success. -/
def perform (vector : XiVector α) : Call α → Option (Bool × XiVector α)
  | .push value alloc => vector.push value alloc
  | .del index => (vector.del index.toInt).map (true,·)
  | .swapElems i0 i1 => (vector.swapElems i0.toInt i1.toInt).map (true,·)
  | .reserve n alloc => vector.reserve n.toInt alloc

/-- What the calls assert of their arguments. -/
def Call.Asserts (vector : XiVector α) : Call α → Prop
  | .push _ _ => True
  | .del index => 0 ≤ index.toInt ∧ index.toInt < vector.elemNo
  | .swapElems i0 i1 => 0 ≤ i0.toInt ∧ 0 ≤ i1.toInt ∧ i0.toInt < vector.elemNo ∧ i1.toInt < vector.elemNo
  | .reserve n _ => 0 < n.toInt

/-- How a vector comes to be. -/
inductive Origin (α : Type u)
  | create (alloc allocArray : Bool)
  | createFrom (array : List α) (memoryType : MemoryType) (alloc : Bool)
  deriving DecidableEq, Repr

def Origin.make : Origin α → Option (Option (XiVector α))
  | .create alloc allocArray => XiVector.create alloc allocArray
  | .createFrom array memoryType alloc => XiVector.createFrom array memoryType alloc

section List

/-! What the vector stands for. -/

def contents (vector : XiVector α) : List α := vector.array.take vector.elemNo.toNat

def swapped (list : List α) (i j : Nat) : List α :=
  match list[i]?,list[j]? with
  | some a,some b => (list.set i b).set j a
  | _,_ => list

/-- The same call on a list. -/
def Call.onList (list : List α) : Call α → List α
  | .push value _ => list ++ [value]
  | .del index => (list.set index.toInt.toNat (list.getLastD default)).dropLast
  | .swapElems i0 i1 => swapped list i0.toInt.toNat i1.toInt.toNat
  | .reserve n _ => list.take (min list.length n.toInt.toNat)

def Origin.list : Origin α → List α
  | .create _ _ => []
  | .createFrom array _ _ => array

end List

/-- The numbers of the vector describe its block. -/
structure Sound (vector : XiVector α) : Prop where
  nonneg : 0 ≤ vector.elemNo
  within : vector.elemNo ≤ vector.capacity
  whole : vector.capacity = vector.array.length
  positive : 0 < vector.capacity
  byte : vector.capacity ≤ 127

/-- A call that is answered so is the call on the list, and a failed one does nothing. -/
structure Follows (vector : XiVector α) (call : Call α) (answer : Bool) (vector' : XiVector α) : Prop where
  sound : vector'.Sound
  contents : vector'.contents = if answer then call.onList vector.contents else vector.contents
  failed : answer = false → vector'.elemNo = vector.elemNo ∧ vector'.capacity = vector.capacity

/-- The vector beside the list: the call is answered and does the same to both, unless its caller breaks an assertion. -/
def Refines (state : XiVector α × List α) (call : Call α) : Prop :=
  call.Asserts state.1 → ∃ answer vector', state.1.perform call = some (answer,vector') ∧ vector'.Sound ∧
    vector'.contents = (if answer then call.onList state.2 else state.2) ∧
    (answer = false → vector'.elemNo = state.1.elemNo ∧ vector'.capacity = state.1.capacity)

def next (state : XiVector α × List α) (call : Call α) : Option (XiVector α × List α) :=
  (state.1.perform call).map fun (answer,vector) => (vector,if answer then call.onList state.2 else state.2)

/-- No memory lacks for a `reserve` of less than there is. -/
def Provided (vector : XiVector α) : Call α → Prop
  | .reserve n alloc => 0 < n.toInt ∧ n.toInt < vector.elemNo → vector.memoryType = .managed ∧ alloc
  | _ => True

section Operations

variable {vector vector' : XiVector α}

theorem indexType_of_byte {n : Int} (low : -128 ≤ n) (high : n ≤ 127) : indexType n = n := by
  rw [indexType]
  omega

omit [Inhabited α] in
theorem contents_length (inside : vector.elemNo ≤ vector.array.length) : vector.contents.length = vector.elemNo.toNat := by
  rw [contents,List.length_take]
  omega

theorem realloc_refused {newSize : Int} {alloc : Bool} (differs : newSize ≠ 0 ∧ newSize ≠ vector.capacity)
    (refused : ¬ (vector.memoryType = .managed ∧ alloc ∧ 0 < newSize)) : vector.realloc newSize alloc = some (false,vector) := by
  rw [realloc,if_pos differs]
  split
  · rfl
  · rw [if_neg (by tauto)]

theorem realloc_done {newSize : Int} (differs : newSize ≠ vector.capacity) (positive : 0 < newSize)
    (managed : vector.memoryType = .managed) (nonneg : 0 ≤ vector.elemNo) (inside : vector.elemNo ≤ vector.array.length)
    (room : vector.elemNo ≤ newSize) :
    ∃ vector', vector.realloc newSize true = some (true,vector') ∧ vector'.contents = vector.contents ∧
      vector'.elemNo = vector.elemNo ∧ vector'.capacity = newSize ∧ newSize = vector'.array.length ∧ vector'.memoryType = .managed := by
  rw [realloc,if_pos ⟨by omega,differs⟩,if_neg (by simp [managed]),if_pos ⟨rfl,positive⟩,if_neg (by omega)]
  refine ⟨_,rfl,?_,rfl,rfl,?_,managed⟩
  · have taken : (vector.array.take vector.elemNo.toNat).length = vector.elemNo.toNat := contents_length inside
    rw [contents,contents,List.take_append_of_le_length taken.ge,List.take_take,min_self]
  · simp only [List.length_append,List.length_take,List.length_replicate]
    omega

omit [Inhabited α] in
theorem write_inside {index : Int} (value : α) (nonneg : 0 ≤ index) (inside : index < vector.array.length) :
    vector.write index value = some {vector with array := vector.array.set index.toNat value} := by
  rw [write,if_pos ⟨nonneg,inside⟩]

omit [Inhabited α] in
theorem take_set_end {list : List α} {n : Nat} (inside : n < list.length) (value : α) :
    (list.set n value).take (n + 1) = list.take n ++ [value] := by
  rw [List.take_succ_eq_append_getElem (by simpa using inside),List.getElem_set_self,List.take_set_of_le le_rfl]

omit [Inhabited α] in
/-- A push into a vector that has room, before the number of its elements grows. -/
theorem push_into (value : α) (nonneg : 0 ≤ vector.elemNo) (room : vector.elemNo < vector.capacity)
    (whole : vector.capacity = vector.array.length) (byte : vector.capacity ≤ 127) :
    ∃ vector', (vector.write vector.elemNo value).map (fun vector => (true,{vector with elemNo := indexType (vector.elemNo + 1)})) =
        some (true,vector') ∧ vector'.Sound ∧ vector'.contents = vector.contents ++ [value] ∧
      vector'.memoryType = vector.memoryType := by
  rw [write_inside value nonneg (by omega)]
  have grown : indexType (vector.elemNo + 1) = vector.elemNo + 1 := indexType_of_byte (by omega) (by omega)
  refine ⟨_,rfl,⟨?_,?_,?_,?_,?_⟩,?_,rfl⟩
  · simp only [grown]
    omega
  · simp only [grown]
    omega
  · simpa using whole
  · simp only
    omega
  · exact byte
  · simp only [contents,grown]
    rw [show (vector.elemNo + 1).toNat = vector.elemNo.toNat + 1 by omega]
    exact take_set_end (by omega) value

/-- From 64 elements on twice the capacity is no signed byte. -/
theorem doubled {capacity : Int} (positive : 0 < capacity) (byte : capacity ≤ 127) :
    indexType (capacity * 2) ≠ 0 ∧ indexType (capacity * 2) ≠ capacity ∧ (0 < indexType (capacity * 2) ↔ capacity < 64) ∧
      (capacity < 64 → indexType (capacity * 2) = capacity * 2) := by
  rw [indexType]
  omega

/-- There is room for one more element, or memory to make some. -/
def Room (vector : XiVector α) (alloc : Bool) : Prop :=
  vector.elemNo < vector.capacity ∨ (vector.memoryType = .managed ∧ alloc ∧ vector.capacity < 64)

theorem push_done (sound : vector.Sound) (value : α) {alloc : Bool} (room : vector.Room alloc) :
    ∃ vector', vector.push value alloc = some (true,vector') ∧ vector'.Sound ∧ vector'.contents = vector.contents ++ [value] ∧
      vector'.memoryType = vector.memoryType := by
  obtain ⟨nonneg,within,whole,positive,byte⟩ := sound
  by_cases full : vector.capacity < vector.elemNo + 1
  · obtain ⟨managed,rfl,small⟩ := room.resolve_left (by omega)
    obtain ⟨nonzero,differs,grows,twice⟩ := doubled positive byte
    obtain ⟨larger,done,same,elemNo,capacity,whole',memory⟩ :=
      realloc_done differs (grows.mpr small) managed nonneg (by omega) (by omega)
    obtain ⟨vector',written,sound',contents',memory'⟩ :=
      @push_into α larger value (by omega) (by omega) (by omega) (by omega)
    refine ⟨vector',?_,sound',by rw [contents',same],by rw [memory',memory,managed]⟩
    rw [push,if_pos full,done]
    exact written
  · obtain ⟨vector',written,sound',contents',memory⟩ := push_into value nonneg (by omega) whole byte
    refine ⟨vector',?_,sound',contents',memory⟩
    rw [push,if_neg full]
    exact written

theorem push_refused (sound : vector.Sound) (value : α) {alloc : Bool} (tight : ¬ vector.Room alloc) :
    vector.push value alloc = some (false,vector) := by
  obtain ⟨nonzero,differs,grows,_⟩ := doubled sound.positive sound.byte
  obtain ⟨full,lacks⟩ := not_or.mp tight
  rw [push,if_pos (by omega),realloc_refused ⟨nonzero,differs⟩ (by rwa [grows])]
  rfl

theorem push_follows (sound : vector.Sound) (value : α) (alloc : Bool) :
    ∃ answer vector', vector.push value alloc = some (answer,vector') ∧ vector.Follows (.push value alloc) answer vector' := by
  by_cases room : vector.Room alloc
  · obtain ⟨vector',done,sound',contents',_⟩ := push_done sound value room
    exact ⟨true,vector',done,sound',contents',by simp⟩
  · exact ⟨false,vector,push_refused sound value room,sound,rfl,fun _ => ⟨rfl,rfl⟩⟩

omit [Inhabited α] in
theorem contents_getElem? {index : Nat} (inside : (index : Int) < vector.elemNo) :
    vector.contents[index]? = vector.array[index]? := by
  rw [contents,List.getElem?_take_of_lt (by omega)]

omit [Inhabited α] in
theorem swapElems_inside {i0 i1 : Int} (whole : vector.elemNo ≤ vector.array.length) (nonneg0 : 0 ≤ i0) (nonneg1 : 0 ≤ i1)
    (inside0 : i0 < vector.elemNo) (inside1 : i1 < vector.elemNo) :
    ∃ e0 e1, vector.array[i0.toNat]? = some e0 ∧ vector.array[i1.toNat]? = some e1 ∧
      vector.swapElems i0 i1 = some {vector with array := (vector.array.set i0.toNat e1).set i1.toNat e0} := by
  obtain ⟨e0,found0⟩ : ∃ e, vector.array[i0.toNat]? = some e := ⟨_,List.getElem?_eq_getElem (by omega)⟩
  obtain ⟨e1,found1⟩ : ∃ e, vector.array[i1.toNat]? = some e := ⟨_,List.getElem?_eq_getElem (by omega)⟩
  exact ⟨_,_,found0,found1,by rw [swapElems,if_pos ⟨nonneg0,nonneg1,by omega,by omega⟩,found0,found1]⟩

theorem swapElems_follows (sound : vector.Sound) (i0 i1 : Int8) (asserted : Call.Asserts vector (.swapElems i0 i1)) :
    ∃ answer vector', vector.perform (.swapElems i0 i1) = some (answer,vector') ∧
      vector.Follows (.swapElems i0 i1) answer vector' := by
  obtain ⟨nonneg,within,whole,positive,byte⟩ := sound
  obtain ⟨nonneg0,nonneg1,inside0,inside1⟩ := asserted
  obtain ⟨e0,e1,found0,found1,done⟩ := swapElems_inside (by omega) nonneg0 nonneg1 inside0 inside1
  have performed : vector.perform (.swapElems i0 i1) =
      some (true,{vector with array := (vector.array.set i0.toInt.toNat e1).set i1.toInt.toNat e0}) := by rw [perform,done,Option.map_some]
  refine ⟨true,_,performed,⟨nonneg,within,by simpa using whole,positive,byte⟩,?_,by simp⟩
  have first := @contents_getElem? α vector i0.toInt.toNat (by omega)
  have second := @contents_getElem? α vector i1.toInt.toNat (by omega)
  simp only [if_true,Call.onList,swapped,first,second,found0,found1]
  rw [contents,List.take_set,List.take_set,contents]

omit [Inhabited α] in
theorem dropLast_set (list : List α) (index n : Nat) (value : α) (inside : n + 1 ≤ list.length) :
    ((list.take (n + 1)).set index value).dropLast = (list.take n).set index value := by
  rw [List.dropLast_eq_take,List.length_set,List.length_take,min_eq_left inside,Nat.add_sub_cancel,List.take_set,List.take_take,
    min_eq_left (Nat.le_succ n)]

omit [Inhabited α] in
theorem getLastD_take (list : List α) (n : Nat) (value : α) (last : α) (found : list[n]? = some last) :
    (list.take (n + 1)).getLastD value = last := by
  obtain ⟨inside,same⟩ := List.getElem?_eq_some_iff.mp found
  rw [List.take_succ_eq_append_getElem inside,List.getLastD_concat,same]

/-- The last element goes to the place of the deleted one, whether or not that is its own. -/
theorem del_follows (sound : vector.Sound) (index : Int8) (asserted : Call.Asserts vector (.del index)) :
    ∃ answer vector', vector.perform (.del index) = some (answer,vector') ∧ vector.Follows (.del index) answer vector' := by
  obtain ⟨nonneg,within,whole,positive,byte⟩ := sound
  obtain ⟨low,high⟩ := asserted
  obtain ⟨n,count⟩ : ∃ n : Nat, vector.elemNo = n + 1 := ⟨(vector.elemNo - 1).toNat,by omega⟩
  have place : (vector.elemNo - 1).toNat = n := by omega
  have number : vector.elemNo.toNat = n + 1 := by omega
  have inside : n + 1 ≤ vector.array.length := by omega
  obtain ⟨e0,e1,_,found1,swap⟩ :=
    @swapElems_inside α vector index.toInt (vector.elemNo - 1) (by omega) low (by omega) high (by omega)
  rw [place] at found1
  have last : vector.contents.getLastD default = e1 := by
    rw [contents,number]
    exact getLastD_take _ _ _ _ found1
  have wanted : Call.onList vector.contents (.del index) = (vector.array.take n).set index.toInt.toNat e1 := by
    rw [Call.onList,last,contents,number,dropLast_set _ _ _ _ inside]
  by_cases own : index.toInt = vector.elemNo - 1
  · have written := @write_inside α vector (vector.elemNo - 1) default (by omega) (by omega)
    have performed : vector.perform (.del index) = some (true,{vector with
        array := vector.array.set (vector.elemNo - 1).toNat default,elemNo := vector.elemNo - 1}) := by
      rw [perform,del,if_pos ⟨low,by omega,high⟩,if_neg (by omega),Option.bind_some,written,Option.map_some,Option.map_some]
    refine ⟨true,_,performed,⟨by simp only; omega,by simp only; omega,by simpa using whole,positive,byte⟩,?_,by simp⟩
    rw [if_pos rfl,wanted,contents]
    simp only [place]
    rw [List.take_set_of_le le_rfl,own,place,List.set_eq_of_length_le (by rw [List.length_take]; omega)]
  · have written := @write_inside α {vector with array := (vector.array.set index.toInt.toNat e1).set (vector.elemNo - 1).toNat e0}
      (vector.elemNo - 1) default (by omega) (by simp only [List.length_set]; omega)
    have performed : vector.perform (.del index) = some (true,{vector with
        array := ((vector.array.set index.toInt.toNat e1).set (vector.elemNo - 1).toNat e0).set (vector.elemNo - 1).toNat default
        elemNo := vector.elemNo - 1}) := by
      rw [perform,del,if_pos ⟨low,by omega,high⟩,if_pos own,swap,Option.bind_some,written,Option.map_some,Option.map_some]
    refine ⟨true,_,performed,⟨by simp only; omega,by simp only; omega,by simpa using whole,positive,byte⟩,?_,by simp⟩
    rw [if_pos rfl,wanted,contents]
    simp only [place]
    rw [List.take_set_of_le le_rfl,List.take_set_of_le le_rfl,List.take_set]

omit [Inhabited α] in
theorem Sound.contents_length (sound : vector.Sound) : (vector.contents.length : Int) = vector.elemNo := by
  obtain ⟨nonneg,within,whole,positive,byte⟩ := sound
  rw [XiVector.contents_length (by omega)]
  omega

omit [Inhabited α] in
theorem Sound.write (sound : vector.Sound) {i : Nat} (inside : (i : Int) < vector.elemNo) (value : α) :
    ∃ vector', vector.write i value = some vector' ∧ vector'.Sound ∧ vector'.elemNo = vector.elemNo ∧
      vector'.contents = vector.contents.set i value := by
  obtain ⟨nonneg,within,whole,positive,byte⟩ := sound
  refine ⟨_,write_inside value (by omega) (by omega),⟨nonneg,within,?_,positive,byte⟩,rfl,?_⟩
  · simpa using whole
  · rw [contents,contents,List.take_set]
    rfl

/-- A deletion at an index that is a natural number. -/
theorem Sound.del (sound : vector.Sound) {i : Nat} (inside : (i : Int) < vector.elemNo) :
    ∃ vector', vector.del i = some vector' ∧ vector.perform (.del (Int8.ofInt i)) = some (true,vector') ∧ vector'.Sound ∧
      vector'.contents = SwapDelete.delete vector.contents i := by
  have index : (Int8.ofInt i).toInt = i := by
    have := sound.within
    have := sound.byte
    exact Int8.toInt_ofInt_of_le (by omega) (by omega)
  have length := sound.contents_length
  have inside' : i < vector.contents.length := by omega
  obtain ⟨answer,vector',performed,follows⟩ :=
    del_follows sound (Int8.ofInt i) ⟨by rw [index]; omega,by rw [index]; exact inside⟩
  have done := performed
  rw [perform,index] at done
  obtain ⟨other,deleted,pair⟩ := Option.map_eq_some_iff.mp done
  obtain ⟨rfl,rfl⟩ := Prod.mk.inj pair
  refine ⟨other,deleted,performed,follows.sound,?_⟩
  rw [follows.contents,if_pos rfl,Call.onList,index,Int.toNat_natCast,SwapDelete.dropLast_set_last i inside' default]

theorem reserve_follows (sound : vector.Sound) (n : Int8) (alloc : Bool) (asserted : Call.Asserts vector (.reserve n alloc))
    (provided : vector.Provided (.reserve n alloc)) :
    ∃ answer vector', vector.perform (.reserve n alloc) = some (answer,vector') ∧
      vector.Follows (.reserve n alloc) answer vector' := by
  obtain ⟨nonneg,within,whole,positive,byte⟩ := sound
  have inRange : 0 < n.toInt := asserted
  have length := @contents_length α vector (by omega)
  have top : n.toInt ≤ 127 := n.toInt_le
  by_cases set : n.toInt = vector.capacity
  · refine ⟨true,vector,by rw [perform,reserve,if_pos inRange,if_pos set],⟨nonneg,within,whole,positive,byte⟩,?_,by simp⟩
    rw [if_pos rfl,Call.onList,min_eq_left (by omega),List.take_length]
  by_cases less : n.toInt < vector.elemNo
  · obtain ⟨managed,rfl⟩ := provided ⟨inRange,less⟩
    obtain ⟨vector',done,same,elemNo,capacity,whole',_⟩ :=
      @realloc_done α _ {vector with elemNo := n.toInt} n.toInt set inRange managed (by simp only; omega) (by simp only; omega) le_rfl
    refine ⟨true,vector',by rw [perform,reserve,if_pos inRange,if_neg set,if_pos less,done],
      ⟨by rw [elemNo]; simp only; omega,by rw [elemNo,capacity],by omega,by omega,by omega⟩,?_,by simp⟩
    rw [if_pos rfl,same,Call.onList,length,min_eq_right (by omega),contents,contents,List.take_take,min_eq_left (by omega)]
  · by_cases refused : ¬ (vector.memoryType = .managed ∧ alloc ∧ 0 < n.toInt)
    · refine ⟨false,vector,?_,⟨nonneg,within,whole,positive,byte⟩,rfl,fun _ => ⟨rfl,rfl⟩⟩
      rw [perform,reserve,if_pos inRange,if_neg set,if_neg less,realloc_refused ⟨by omega,set⟩ refused]
    · obtain ⟨managed,rfl,_⟩ := not_not.mp refused
      obtain ⟨vector',done,same,elemNo,capacity,whole',_⟩ :=
        realloc_done set inRange managed nonneg (by omega) (by omega)
      refine ⟨true,vector',by rw [perform,reserve,if_pos inRange,if_neg set,if_neg less,done],
        ⟨by omega,by omega,by omega,by omega,by omega⟩,?_,by simp⟩
      rw [if_pos rfl,same,Call.onList,min_eq_left (by omega),List.take_length]

theorem asserts_of_perform {call : Call α} {answer : Bool} (performed : vector.perform call = some (answer,vector')) :
    call.Asserts vector := by
  cases call with
  | push value alloc => exact trivial
  | del index =>
    rw [perform,del] at performed
    split at performed
    · rename_i asserted
      exact ⟨asserted.1,asserted.2.2⟩
    · cases performed
  | swapElems i0 i1 =>
    rw [perform,swapElems] at performed
    split at performed
    · rename_i asserted
      exact ⟨asserted.1,asserted.2.1,by omega,by omega⟩
    · cases performed
  | reserve n alloc =>
    rw [perform,reserve] at performed
    split at performed
    · assumption
    · cases performed

theorem follows_of_provided (sound : vector.Sound) (call : Call α) (asserted : call.Asserts vector) (provided : vector.Provided call) :
    ∃ answer vector', vector.perform call = some (answer,vector') ∧ vector.Follows call answer vector' := by
  cases call with
  | push value alloc => exact push_follows sound value alloc
  | del index => exact del_follows sound index asserted
  | swapElems i0 i1 => exact swapElems_follows sound i0 i1 asserted
  | reserve n alloc => exact reserve_follows sound n alloc asserted provided

/-- The elements are dropped before the memory for the others is there. -/
theorem reserve_unprovided {n : Int8} {alloc : Bool} (within : vector.elemNo ≤ vector.capacity)
    (unprovided : ¬ vector.Provided (.reserve n alloc)) :
    vector.perform (.reserve n alloc) = some (false,{vector with elemNo := n.toInt}) ∧ n.toInt < vector.elemNo := by
  simp only [Provided,Classical.not_imp] at unprovided
  obtain ⟨⟨asserted,less⟩,lacks⟩ := unprovided
  have trimmed : ¬ (vector.memoryType = .managed ∧ alloc ∧ 0 < n.toInt) := fun ⟨managed,alloc,_⟩ => lacks ⟨managed,alloc⟩
  refine ⟨?_,less⟩
  rw [perform,reserve,if_pos asserted,if_neg (by omega),if_pos less]
  exact @realloc_refused α _ {vector with elemNo := n.toInt} _ _ ⟨by omega,by simp only; omega⟩ trimmed

theorem refines_iff_provided (state : XiVector α × List α) (call : Call α) (sound : state.1.Sound)
    (same : state.1.contents = state.2) : Refines state call ↔ state.1.Provided call := by
  constructor
  · intro refines
    by_contra unprovided
    cases call with
    | reserve n alloc =>
      obtain ⟨performed,less⟩ := reserve_unprovided sound.within unprovided
      obtain ⟨answer,vector',performed',_,_,failed⟩ := refines (asserts_of_perform performed)
      obtain ⟨rfl,rfl⟩ : false = answer ∧ {state.1 with elemNo := n.toInt} = vector' := by
        simpa using performed.symm.trans performed'
      have kept : n.toInt = state.1.elemNo := (failed rfl).1
      omega
    | push value alloc => exact unprovided trivial
    | del index => exact unprovided trivial
    | swapElems i0 i1 => exact unprovided trivial
  · intro provided asserted
    obtain ⟨answer,vector',performed,follows⟩ := follows_of_provided sound call asserted provided
    exact ⟨answer,vector',performed,follows.sound,by rw [follows.contents,same],follows.failed⟩

end Operations

/-- A vector can be made of an array whose length is a signed byte. -/
def Origin.Fits : Origin α → Prop
  | .create _ _ => True
  | .createFrom array _ _ => array.length ≤ 127

theorem Origin.make_sound (origin : Origin α) {vector : XiVector α} (made : origin.make = some (some vector)) :
    (vector.Sound ∧ vector.contents = origin.list) ↔ origin.Fits := by
  cases origin with
  | create alloc allocArray =>
    refine iff_of_true ?_ trivial
    cases alloc with
    | false => cases made
    | true =>
      cases allocArray with
      | false => cases made
      | true =>
        obtain rfl : {array := [default,default],elemNo := 0,capacity := 2,memoryType := .managed} = vector := by
          simpa [make,XiVector.create,realloc,defaultCapacity,List.replicate] using made
        exact ⟨⟨by simp,by simp,by simp,by simp,by simp⟩,rfl⟩
  | createFrom array memoryType alloc =>
    rw [make,XiVector.createFrom] at made
    split at made
    · rename_i filled
      split at made
      · obtain rfl : {array := array,elemNo := indexType array.length,capacity := indexType array.length,memoryType := memoryType} = vector := by
          simpa using made
        constructor
        · rintro ⟨⟨_,_,whole,_,byte⟩,_⟩
          simp only at whole byte
          simp only [Fits]
          omega
        · intro fits
          have short : indexType array.length = array.length := indexType_of_byte (by omega) (by simp only [Fits] at fits; omega)
          refine ⟨⟨?_,?_,?_,?_,?_⟩,?_⟩
          · simp only [short]
            omega
          · simp only [le_refl]
          · simp only [short]
          · simp only [short]
            omega
          · simp only [short]
            simp only [Fits] at fits
            omega
          · simp only [contents,short,list,Int.toNat_natCast,List.take_length]
      · cases made
    · cases made

/-- A vector and its list stay the same through every run exactly if the array it began with is short enough and no `reserve` of less
than there is lacks the memory. -/
theorem each_refines_iff (origin : Origin α) (calls : List (Call α)) (vector : XiVector α) (made : origin.make = some (some vector)) :
    (vector.Sound ∧ vector.contents = origin.list ∧ Runs.Each next Refines (vector,origin.list) calls) ↔
      origin.Fits ∧ Runs.Each next (fun state => state.1.Provided) (vector,origin.list) calls := by
  rw [← and_assoc,origin.make_sound made]
  refine and_congr_right fun fits => ?_
  refine Runs.each_iff (I := fun state => state.1.Sound ∧ state.1.contents = state.2)
    (fun state call kept => refines_iff_provided state call kept.1 kept.2) ?_ ((origin.make_sound made).mpr fits)
  rintro state call state' kept refines stepped
  obtain ⟨⟨answer,vector'⟩,performed,rfl⟩ := Option.map_eq_some_iff.mp stepped
  obtain ⟨answer',vector'',performed',sound,same,_⟩ := refines (asserts_of_perform performed)
  obtain ⟨rfl,rfl⟩ : answer' = answer ∧ vector'' = vector' := by simpa using performed'.symm.trans performed
  exact ⟨sound,same⟩

theorem each_refines_two : Runs.Each next Refines (⟨[1,2],2,2,.managed⟩,[1,2]) [.reserve 4 true,.push 3 false] :=
  ((each_refines_iff (.createFrom [1,2] .managed true) [.reserve 4 true,.push 3 false] ⟨[1,2],2,2,.managed⟩ (by decide)).mpr
    ⟨by simp [Origin.Fits],fun _ => ⟨rfl,rfl⟩,fun _ _ => ⟨trivial,fun _ _ => trivial⟩⟩).2.2

/-- Of two elements one is lost in a `reserve` that fails for lack of memory. -/
theorem reserve_loses_element : ¬ ∀ (origin : Origin Nat) (calls : List (Call Nat)) (vector : XiVector Nat),
    origin.make = some (some vector) →
      vector.Sound ∧ vector.contents = origin.list ∧ Runs.Each next Refines (vector,origin.list) calls := by
  intro claim
  obtain ⟨_,_,first,_⟩ := claim (.createFrom [1,2] .managed true) [.reserve 1 false] ⟨[1,2],2,2,.managed⟩ (by decide)
  obtain ⟨answer,vector',performed,_,_,failed⟩ := first (show (0 : Int) < 1 by decide)
  have lost : perform ⟨[1,2],2,2,.managed⟩ (.reserve 1 false) = some (false,⟨[1,2],1,2,.managed⟩) := by decide
  obtain ⟨rfl,rfl⟩ : false = answer ∧ ⟨[1,2],1,2,.managed⟩ = vector' := by simpa using lost.symm.trans performed
  exact absurd (failed rfl).1 (by decide)

end XiVector

end XivelyClient
