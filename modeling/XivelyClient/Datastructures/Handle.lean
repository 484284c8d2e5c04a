import Mathlib.Data.List.Nodup
import Mathlib.Data.List.Perm.Subperm
import XivelyClient.Datastructures.Vector

/-! Handles of objects (`xi_handle.c`). The elements of the vector are pointers, `none` for `NULL`. -/
namespace XivelyClient.Handle

universe u

variable {α : Type u} [DecidableEq α]

def invalidContextHandle : Int := -1

/-- A handle has 32 bits and the index that it becomes has 8. -/
def objectForHandle (vector : XiVector (Option α)) (handle : Int32) : Option (Option α) := vector.get (indexType handle.toInt)

def findHandleForObject (vector : XiVector (Option α)) (object : Option α) : Option (XiState × Int) :=
  (vector.find (· == object)).map fun handlerIndex =>
    if handlerIndex < 0 then (.elementNotFound,invalidContextHandle) else (.ok,handlerIndex)

def deleteHandleForObject (vector : XiVector (Option α)) (object : Option α) : Option (XiState × XiVector (Option α)) :=
  (vector.find (· == object)).bind fun handlerIndex =>
    if handlerIndex < 0 then some (.elementNotFound,vector) else (vector.write handlerIndex none).map (.ok,·)

/-- Whether the vector has grown is not asked. -/
def registerHandleForObject (vector : XiVector (Option α)) (maxObjectCnt : Int32) (object : Option α) (alloc : Bool) :
    Option (XiState × XiVector (Option α)) :=
  (vector.find (· == none)).bind fun handlerIndex =>
    if handlerIndex < 0 then
      if maxObjectCnt.toInt ≤ vector.elemNo then some (.noMoreResourceAvailable,vector)
      else (vector.push object alloc).map fun (_,vector) => (.ok,vector)
    else (vector.write handlerIndex object).map (.ok,·)

inductive Call (α : Type u)
  | register (maxObjectCnt : Int32) (object : α) (alloc : Bool)
  | delete (object : α)
  | lookUp (handle : Int32)
  deriving DecidableEq, Repr

/-- The live objects with the handles that they got. -/
abbrev Live (α : Type u) := List (α × Int)

/-- The ledger after a registration that is said to have been done. -/
def noted (vector : XiVector (Option α)) (object : α) (live : Live α) : Live α :=
  match findHandleForObject vector (some object) with
  | some (.ok,handle) => (object,handle) :: live
  | _ => live

def without (object : α) (live : Live α) : Live α := live.filter fun entry => entry.1 ≠ object

/-- A run ends where a live object is registered again. -/
def next (state : XiVector (Option α) × Live α) : Call α → Option (XiVector (Option α) × Live α)
  | .register maxObjectCnt object alloc =>
    if object ∈ state.2.map Prod.fst then none
    else (registerHandleForObject state.1 maxObjectCnt (some object) alloc).map fun (answer,vector) =>
      (vector,if answer = .ok then noted vector object state.2 else state.2)
  | .delete object => (deleteHandleForObject state.1 (some object)).map fun (answer,vector) =>
      (vector,if answer = .ok then without object state.2 else state.2)
  | .lookUp _ => some state

/-- Every live object is found, by the handle that it got and that no other has. -/
structure Registered (vector : XiVector (Option α)) (live : Live α) : Prop where
  findable : ∀ object handle, (object,handle) ∈ live → findHandleForObject vector (some object) = some (.ok,handle)
  distinct : (live.map Prod.snd).Nodup

def Wanted (state : XiVector (Option α) × Live α) : Call α → Prop
  | .register maxObjectCnt object alloc => object ∉ state.2.map Prod.fst →
      ∃ answer vector, registerHandleForObject state.1 maxObjectCnt (some object) alloc = some (answer,vector) ∧
        (if answer = .ok then ∃ handle, findHandleForObject vector (some object) = some (.ok,handle) ∧
          Registered vector ((object,handle) :: state.2) else Registered vector state.2)
  | .delete object => ∃ answer vector, deleteHandleForObject state.1 (some object) = some (answer,vector) ∧
      (answer = .ok ↔ object ∈ state.2.map Prod.fst) ∧ Registered vector (if answer = .ok then without object state.2 else state.2)
  | .lookUp handle => ∃ found, objectForHandle state.1 handle = some found ∧
      ∀ object, found = some object ↔ (object,handle.toInt) ∈ state.2

/-- A registration that is not refused has a slot or the memory for one, and a handle of more than a byte is not cut to a live one. -/
def Served (state : XiVector (Option α) × Live α) : Call α → Prop
  | .register maxObjectCnt object alloc => object ∉ state.2.map Prod.fst → none ∉ state.1.contents →
      state.1.elemNo < maxObjectCnt.toInt → state.1.Room alloc
  | .delete _ => True
  | .lookUp handle => indexType handle.toInt = handle.toInt ∨ ∀ object, (object,indexType handle.toInt) ∉ state.2

/-- The slots hold the live objects, each once. -/
structure Agrees (vector : XiVector (Option α)) (live : Live α) : Prop where
  sound : vector.Sound
  managed : vector.memoryType = .managed
  slots : ∀ object handle, (object,handle) ∈ live ↔ 0 ≤ handle ∧ vector.contents[handle.toNat]? = some (some object)
  once : (live.map Prod.fst).Nodup

section Find

theorem findFrom_cases {β : Type u} (cmp : β → Bool) (list : List β) (start : Int) :
    (XiVector.findFrom cmp start list = -1 ∧ ∀ e ∈ list, cmp e = false) ∨
      ∃ (n : Nat) (e : β), XiVector.findFrom cmp start list = start + n ∧ list[n]? = some e ∧ cmp e = true := by
  induction list generalizing start with
  | nil => exact .inl ⟨rfl,by simp⟩
  | cons first rest ih =>
    rw [XiVector.findFrom]
    cases here : cmp first with
    | true => exact .inr ⟨0,first,by simp,rfl,here⟩
    | false =>
      rw [if_neg Bool.false_ne_true]
      rcases ih (start + 1) with ⟨missing,others⟩ | ⟨n,e,found,entry,match_⟩
      · refine .inl ⟨missing,?_⟩
        intro e member
        rcases List.mem_cons.mp member with rfl | later
        · exact here
        · exact others e later
      · exact .inr ⟨n + 1,e,by rw [found]; omega,entry,match_⟩

variable {vector : XiVector (Option α)} {live : Live α}

theorem find_cases (sound : vector.Sound) (object : Option α) :
    (vector.find (· == object) = some (-1) ∧ object ∉ vector.contents) ∨
      ∃ n : Nat, vector.find (· == object) = some (n : Int) ∧ vector.contents[n]? = some object ∧ (n : Int) < vector.elemNo := by
  have inside : vector.elemNo ≤ vector.array.length := sound.within.trans sound.whole.le
  rw [XiVector.find,if_pos inside]
  rcases findFrom_cases (· == object) vector.contents 0 with ⟨missing,others⟩ | ⟨n,e,found,entry,match_⟩
  · refine .inl ⟨congrArg some missing,fun member => ?_⟩
    simpa using others object member
  · obtain rfl : e = object := by simpa using match_
    refine .inr ⟨n,by rw [← XiVector.contents,found,Int.zero_add],entry,?_⟩
    have bound := (List.getElem?_eq_some_iff.mp entry).1
    rw [XiVector.contents_length inside] at bound
    omega

omit [DecidableEq α] in
theorem write_slot (sound : vector.Sound) {n : Nat} (inside : (n : Int) < vector.elemNo) (value : Option α) :
    ∃ vector', vector.write n value = some vector' ∧ vector'.Sound ∧ vector'.contents = vector.contents.set n value ∧
      vector'.memoryType = vector.memoryType := by
  obtain ⟨nonneg,within,whole,positive,byte⟩ := sound
  refine ⟨_,XiVector.write_inside value (by omega) (by omega),⟨nonneg,within,by simpa using whole,positive,byte⟩,?_,rfl⟩
  rw [XiVector.contents,List.take_set]
  rfl

end Find

section Agrees

variable {vector : XiVector (Option α)} {live : Live α}

omit [DecidableEq α] in
theorem Agrees.functional (agrees : Agrees vector live) {object : α} {i j : Int} (first : (object,i) ∈ live)
    (second : (object,j) ∈ live) : i = j :=
  congrArg Prod.snd (List.inj_on_of_nodup_map agrees.once first second rfl)

omit [DecidableEq α] in
theorem Agrees.injective (agrees : Agrees vector live) {o o' : α} {handle : Int} (first : (o,handle) ∈ live)
    (second : (o',handle) ∈ live) : o = o' := by
  have here := ((agrees.slots o handle).mp first).2
  have there := ((agrees.slots o' handle).mp second).2
  simpa using here.symm.trans there

omit [DecidableEq α] in
theorem Agrees.slot (agrees : Agrees vector live) {object : α} {n : Nat} :
    (object,(n : Int)) ∈ live ↔ vector.contents[n]? = some (some object) := by
  rw [agrees.slots,Int.toNat_natCast]
  exact and_iff_right (Int.natCast_nonneg n)

omit [DecidableEq α] in
theorem Agrees.byte (agrees : Agrees vector live) {object : α} {handle : Int} (known : (object,handle) ∈ live) :
    indexType handle = handle := by
  obtain ⟨nonneg,entry⟩ := (agrees.slots object handle).mp known
  have inside : vector.elemNo ≤ vector.array.length := agrees.sound.within.trans agrees.sound.whole.le
  have bound := (List.getElem?_eq_some_iff.mp entry).1
  rw [XiVector.contents_length inside] at bound
  have top := agrees.sound.within.trans agrees.sound.byte
  exact XiVector.indexType_of_byte (by omega) (by omega)

omit [DecidableEq α] in
/-- Each live object takes a slot. -/
theorem Agrees.length_le (agrees : Agrees vector live) : live.length ≤ vector.contents.length := by
  have once : ((live.map Prod.fst).map some).Nodup := agrees.once.map fun _ _ => Option.some.inj
  have slots : (live.map Prod.fst).map some ⊆ vector.contents := by
    intro entry member
    obtain ⟨⟨object,handle⟩,known,rfl⟩ : ∃ pair ∈ live, some pair.1 = entry := by simpa using member
    exact List.mem_of_getElem? ((agrees.slots object handle).mp known).2
  simpa using (once.subperm slots).length_le

omit [DecidableEq α] in
theorem handle_of {object : α} (known : object ∈ live.map Prod.fst) : ∃ handle, (object,handle) ∈ live := by
  obtain ⟨⟨other,handle⟩,entry,same⟩ := List.mem_map.mp known
  obtain rfl : other = object := same
  exact ⟨handle,entry⟩

theorem mem_without {object other : α} :
    other ∈ (without object live).map Prod.fst ↔ other ≠ object ∧ other ∈ live.map Prod.fst := by
  simp only [without,List.mem_map,List.mem_filter,decide_eq_true_eq]
  constructor
  · rintro ⟨entry,⟨member,differs⟩,rfl⟩
    exact ⟨differs,entry,member,rfl⟩
  · rintro ⟨differs,entry,member,rfl⟩
    exact ⟨entry,⟨member,differs⟩,rfl⟩

theorem without_length {object : α} {handle : Int} (once : (live.map Prod.fst).Nodup) (known : (object,handle) ∈ live) :
    live.length = (without object live).length + 1 := by
  have one : (live.map Prod.fst).count object = 1 := List.count_eq_one_of_mem once (List.mem_map_of_mem known)
  rw [List.count,List.countP_map] at one
  rw [List.length_eq_countP_add_countP ((· == object) ∘ Prod.fst),one,without,← List.countP_eq_length_filter,Nat.add_comm]
  simp

theorem Agrees.find (agrees : Agrees vector live) (object : α) :
    (vector.find (· == some object) = some (-1) ∧ object ∉ live.map Prod.fst) ∨
      ∃ n : Nat, vector.find (· == some object) = some (n : Int) ∧ (object,(n : Int)) ∈ live ∧ (n : Int) < vector.elemNo := by
  rcases find_cases agrees.sound (some object) with ⟨missing,absent⟩ | ⟨n,found,entry,inside⟩
  · refine .inl ⟨missing,fun member => ?_⟩
    obtain ⟨⟨o,handle⟩,known,rfl⟩ := List.mem_map.mp member
    exact absent (List.mem_of_getElem? ((agrees.slots o handle).mp known).2)
  · exact .inr ⟨n,found,agrees.slot.mpr entry,inside⟩

theorem Agrees.find_missing (agrees : Agrees vector live) {object : α} (fresh : object ∉ live.map Prod.fst) :
    findHandleForObject vector (some object) = some (.elementNotFound,invalidContextHandle) := by
  rcases agrees.find object with ⟨missing,_⟩ | ⟨n,_,known,_⟩
  · rw [findHandleForObject,missing]
    rfl
  · exact absurd (List.mem_map_of_mem known) fresh

theorem Agrees.find_live (agrees : Agrees vector live) {object : α} {handle : Int} (known : (object,handle) ∈ live) :
    findHandleForObject vector (some object) = some (.ok,handle) := by
  rcases agrees.find object with ⟨_,absent⟩ | ⟨n,found,entry,_⟩
  · exact absurd (List.mem_map_of_mem known) absent
  · obtain rfl := agrees.functional entry known
    rw [findHandleForObject,found,Option.map_some,if_neg (by omega)]

theorem Agrees.registered (agrees : Agrees vector live) : Registered vector live where
  findable := fun _ _ known => agrees.find_live known
  distinct := by
    refine (List.Nodup.of_map _ agrees.once).map_on ?_
    rintro ⟨o,i⟩ first ⟨o',j⟩ second same
    obtain rfl : i = j := same
    rw [agrees.injective first second]

omit [DecidableEq α] in
/-- A new object in a slot that held none. -/
theorem Agrees.taken (agrees : Agrees vector live) {vector' : XiVector (Option α)} {object : α} {n : Nat}
    (sound : vector'.Sound) (managed : vector'.memoryType = .managed) (fresh : object ∉ live.map Prod.fst)
    (here : vector'.contents[n]? = some (some object)) (before : ∀ o, vector.contents[n]? ≠ some (some o))
    (others : ∀ i o, i ≠ n → (vector'.contents[i]? = some (some o) ↔ vector.contents[i]? = some (some o))) :
    Agrees vector' ((object,(n : Int)) :: live) where
  sound := sound
  managed := managed
  slots := by
    intro o handle
    rw [List.mem_cons,agrees.slots]
    by_cases same : handle = n
    · subst same
      rw [Int.toNat_natCast,here]
      simp [before o,eq_comm]
    · rw [Prod.mk.injEq,or_iff_right (fun both => same both.2)]
      refine and_congr_right fun nonneg => (others _ o ?_).symm
      omega
  once := List.nodup_cons.mpr ⟨fresh,agrees.once⟩

theorem Agrees.emptied (agrees : Agrees vector live) {vector' : XiVector (Option α)} {object : α} {n : Nat}
    (sound : vector'.Sound) (managed : vector'.memoryType = .managed) (known : (object,(n : Int)) ∈ live)
    (contents : vector'.contents = vector.contents.set n none) : Agrees vector' (without object live) where
  sound := sound
  managed := managed
  slots := by
    intro o handle
    rw [without,List.mem_filter,agrees.slots,contents]
    have holder := agrees.slot.mp known
    by_cases same : handle.toNat = n
    · subst same
      rw [holder,List.getElem?_set_self (List.getElem?_eq_some_iff.mp holder).1]
      constructor
      · rintro ⟨⟨_,same⟩,other⟩
        obtain rfl : object = o := by simpa using same
        simp at other
      · rintro ⟨_,same⟩
        cases Option.some.inj same
    · rw [List.getElem?_set_ne (Ne.symm same)]
      refine and_iff_left_of_imp fun entry => ?_
      simp only [ne_eq,decide_eq_true_eq]
      rintro rfl
      have := agrees.functional ((agrees.slots o handle).mpr entry) known
      omega
  once := agrees.once.sublist (List.filter_sublist.map _)

end Agrees

section Operations

variable {vector : XiVector (Option α)} {live : Live α}

/-- The slot that a registration finds, or the element that it adds. -/
theorem register_done (agrees : Agrees vector live) {object : α} {maxObjectCnt : Int32} {alloc : Bool}
    (fresh : object ∉ live.map Prod.fst) (served : Served (vector,live) (.register maxObjectCnt object alloc)) :
    ∃ answer vector', registerHandleForObject vector maxObjectCnt (some object) alloc = some (answer,vector') ∧
      ((answer = .ok ∧ ∃ n : Nat, Agrees vector' ((object,(n : Int)) :: live)) ∨ (answer ≠ .ok ∧ Agrees vector' live)) := by
  have inside : vector.elemNo ≤ vector.array.length := agrees.sound.within.trans agrees.sound.whole.le
  rcases find_cases agrees.sound none with ⟨missing,full⟩ | ⟨n,found,empty,below⟩
  · by_cases limit : maxObjectCnt.toInt ≤ vector.elemNo
    · refine ⟨.noMoreResourceAvailable,vector,?_,.inr ⟨by simp,agrees⟩⟩
      rw [registerHandleForObject,missing,Option.bind_some,if_pos (by omega),if_pos limit]
    · obtain ⟨vector',pushed,sound,contents,memory⟩ := XiVector.push_done agrees.sound (some object) (served fresh full (by simpa using limit))
      refine ⟨.ok,vector',?_,.inl ⟨rfl,vector.contents.length,?_⟩⟩
      · rw [registerHandleForObject,missing,Option.bind_some,if_pos (by omega),if_neg limit,pushed,Option.map_some]
      · refine agrees.taken sound (memory.trans agrees.managed) fresh (by rw [contents,List.getElem?_concat_length]) ?_ ?_
        · intro o entry
          exact absurd (List.getElem?_eq_some_iff.mp entry).1 (lt_irrefl _)
        · intro i o other
          rw [contents]
          rcases Nat.lt_or_gt_of_ne other with low | high
          · rw [List.getElem?_append_left low]
          · rw [List.getElem?_eq_none (by rw [List.length_append]; exact high),List.getElem?_eq_none high.le]
  · obtain ⟨vector',written,sound,contents,memory⟩ := write_slot agrees.sound below (some object)
    refine ⟨.ok,vector',?_,.inl ⟨rfl,n,?_⟩⟩
    · rw [registerHandleForObject,found,Option.bind_some,if_neg (by omega),written,Option.map_some]
    · refine agrees.taken sound (memory.trans agrees.managed) fresh ?_ (by simp [empty]) ?_
      · rw [contents,List.getElem?_set_self (List.getElem?_eq_some_iff.mp empty).1]
      · intro i o other
        rw [contents,List.getElem?_set_ne (Ne.symm other)]

/-- Without memory the registration is said to be done, and has done nothing. -/
theorem register_unserved (agrees : Agrees vector live) {object : α} {maxObjectCnt : Int32} {alloc : Bool}
    (full : none ∉ vector.contents) (below : vector.elemNo < maxObjectCnt.toInt) (tight : ¬ vector.Room alloc) :
    registerHandleForObject vector maxObjectCnt (some object) alloc = some (.ok,vector) := by
  rcases find_cases agrees.sound none with ⟨missing,_⟩ | ⟨n,_,empty,_⟩
  · rw [registerHandleForObject,missing,Option.bind_some,if_pos (by omega),if_neg (by omega),
      XiVector.push_refused agrees.sound (some object) tight,Option.map_some]
  · exact absurd (List.mem_of_getElem? empty) full

theorem delete_done (agrees : Agrees vector live) (object : α) :
    ∃ answer vector', deleteHandleForObject vector (some object) = some (answer,vector') ∧
      (answer = .ok ↔ object ∈ live.map Prod.fst) ∧ Agrees vector' (if answer = .ok then without object live else live) := by
  rcases agrees.find object with ⟨missing,absent⟩ | ⟨n,found,known,below⟩
  · refine ⟨.elementNotFound,vector,?_,by simpa using absent,by simpa using agrees⟩
    rw [deleteHandleForObject,missing,Option.bind_some,if_pos (by omega)]
  · obtain ⟨vector',written,sound,contents,memory⟩ := write_slot agrees.sound below none
    refine ⟨.ok,vector',?_,iff_of_true rfl (List.mem_map_of_mem known),?_⟩
    · rw [deleteHandleForObject,found,Option.bind_some,if_neg (by omega),written,Option.map_some]
    · rw [if_pos rfl]
      exact agrees.emptied sound (memory.trans agrees.managed) known contents

omit [DecidableEq α] in
theorem objectForHandle_live (agrees : Agrees vector live) (handle : Int32) :
    ∃ found, objectForHandle vector handle = some found ∧ ∀ object, found = some object ↔ (object,indexType handle.toInt) ∈ live := by
  have inside : vector.elemNo ≤ vector.array.length := agrees.sound.within.trans agrees.sound.whole.le
  have length := XiVector.contents_length inside
  rw [objectForHandle,XiVector.get]
  split
  · rename_i outside
    refine ⟨none,rfl,fun object => iff_of_false (by simp) fun member => ?_⟩
    obtain ⟨nonneg,entry⟩ := (agrees.slots object _).mp member
    have bound := (List.getElem?_eq_some_iff.mp entry).1
    omega
  · rename_i within
    have place := @XiVector.contents_getElem? _ vector (indexType handle.toInt).toNat (by omega)
    have bound : (indexType handle.toInt).toNat < vector.contents.length := by omega
    rw [← place,List.getElem?_eq_getElem bound]
    refine ⟨_,rfl,fun object => ?_⟩
    rw [agrees.slots,List.getElem?_eq_getElem bound,Option.some_inj]
    exact ⟨fun same => ⟨by omega,same⟩,And.right⟩

/-- A handle finds what is live under it exactly if it is a byte, or what it is cut to belongs to nothing. -/
theorem lookUp_iff (agrees : Agrees vector live) (handle : Int32) :
    Wanted (vector,live) (.lookUp handle) ↔ Served (vector,live) (.lookUp handle) := by
  obtain ⟨found,got,belongs⟩ := objectForHandle_live agrees handle
  constructor
  · rintro ⟨found',got',wanted⟩
    obtain rfl : found = found' := by simpa using got.symm.trans got'
    by_contra unserved
    obtain ⟨cut,object,member⟩ : indexType handle.toInt ≠ handle.toInt ∧ ∃ object, (object,indexType handle.toInt) ∈ live := by
      simpa only [Served,not_or,not_forall,not_not] using unserved
    exact cut (agrees.byte ((wanted object).mp ((belongs object).mpr member)))
  · rintro (same | nothing)
    · refine ⟨found,got,fun object => ?_⟩
      rw [belongs,same]
    · refine ⟨found,got,fun object => (belongs object).trans (iff_of_false (nothing object) fun member => ?_)⟩
      have same := agrees.byte member
      rw [← same] at member
      exact nothing object member

theorem wanted_iff_served (agrees : Agrees vector live) (call : Call α) : Wanted (vector,live) call ↔ Served (vector,live) call := by
  cases call with
  | register maxObjectCnt object alloc =>
    constructor
    · intro wanted fresh full below
      by_contra tight
      obtain ⟨answer,vector',registered,done⟩ := wanted fresh
      obtain ⟨rfl,rfl⟩ : XiState.ok = answer ∧ vector = vector' := by
        simpa using (register_unserved agrees full below tight).symm.trans registered
      obtain ⟨handle,found,_⟩ := done
      have missing := agrees.find_missing fresh
      simp [missing] at found
    · intro served fresh
      obtain ⟨answer,vector',registered,⟨rfl,n,agrees'⟩ | ⟨refused,agrees'⟩⟩ := register_done agrees fresh served
      · exact ⟨.ok,vector',registered,(n : Int),agrees'.find_live List.mem_cons_self,agrees'.registered⟩
      · exact ⟨answer,vector',registered,by rw [if_neg refused]; exact agrees'.registered⟩
  | delete object =>
    obtain ⟨answer,vector',deleted,same,agrees'⟩ := delete_done agrees object
    exact iff_of_true ⟨answer,vector',deleted,same,agrees'.registered⟩ trivial
  | lookUp handle => exact lookUp_iff agrees handle

theorem next_agrees (agrees : Agrees vector live) {call : Call α} (served : Served (vector,live) call)
    {state : XiVector (Option α) × Live α} (stepped : next (vector,live) call = some state) : Agrees state.1 state.2 := by
  cases call with
  | register maxObjectCnt object alloc =>
    rw [next] at stepped
    split at stepped
    · cases stepped
    · rename_i fresh
      obtain ⟨answer,vector',registered,outcome⟩ := register_done agrees fresh served
      obtain rfl : (vector',if answer = .ok then noted vector' object live else live) = state := by simpa [registered] using stepped
      rcases outcome with ⟨rfl,n,agrees'⟩ | ⟨refused,agrees'⟩
      · have entry : noted vector' object live = (object,(n : Int)) :: live := by
          rw [noted,agrees'.find_live List.mem_cons_self]
        simpa only [if_true,entry] using agrees'
      · simpa only [if_neg refused] using agrees'
  | delete object =>
    obtain ⟨answer,vector',deleted,_,agrees'⟩ := delete_done agrees object
    obtain rfl : (vector',if answer = .ok then without object live else live) = state := by simpa [next,deleted] using stepped
    exact agrees'
  | lookUp handle =>
    obtain rfl : (vector,live) = state := by simpa [next] using stepped
    exact agrees

end Operations

/-- A vector that has just been created. -/
def created (α : Type u) : XiVector (Option α) := {array := [default,default],elemNo := 0,capacity := 2,memoryType := .managed}

omit [DecidableEq α] in
theorem created_agrees : Agrees (created α) [] where
  sound := ⟨le_rfl,by simp [created],rfl,by simp [created],by simp [created]⟩
  managed := rfl
  slots := by simp [created,XiVector.contents]
  once := List.nodup_nil

/-- The registry answers every call of a run as a table of the live objects would exactly if each registration finds a slot or the
memory for one, and no handle of more than a byte is cut to a live one. -/
theorem each_wanted_iff (calls : List (Call α)) (vector : XiVector (Option α))
    (made : XiVector.create true true = some (some vector)) :
    (Registered vector [] ∧ Runs.Each next Wanted (vector,[]) calls) ↔ Runs.Each next Served (vector,[]) calls := by
  obtain rfl : created α = vector := by
    simpa [created,XiVector.create,XiVector.realloc,XiVector.defaultCapacity,List.replicate] using made
  rw [and_iff_right created_agrees.registered]
  refine Runs.each_iff (I := fun state => Agrees state.1 state.2) (fun state call agrees => wanted_iff_served agrees call) ?_ created_agrees
  rintro state call state' agrees wanted stepped
  exact next_agrees agrees ((wanted_iff_served agrees call).mp wanted) stepped

theorem each_wanted_three : Registered (created Nat) [] ∧ Runs.Each next Wanted (created Nat,[])
    [.register 4 7 true,.lookUp 0,.delete 7] := by
  refine (each_wanted_iff [.register 4 7 true,.lookUp 0,.delete 7] (created Nat) (by decide)).mpr ⟨?_,?_⟩
  · intro _ _ _
    exact .inl (by decide)
  · intro _ _
    exact ⟨.inl (by decide),fun _ _ => ⟨trivial,fun _ _ => trivial⟩⟩

/-- The handle 256 finds the object whose handle is 0. -/
theorem lookUp_finds_cut_handle : ¬ ∀ (calls : List (Call Nat)) (vector : XiVector (Option Nat)),
    XiVector.create true true = some (some vector) → Registered vector [] ∧ Runs.Each next Wanted (vector,[]) calls := by
  intro claim
  obtain ⟨_,_,later⟩ := claim [.register 4 7 true,.lookUp 256] (created Nat) (by decide)
  obtain ⟨⟨found,got,belongs⟩,_⟩ := later ⟨⟨[some 7,none],1,2,.managed⟩,[(7,0)]⟩ (by decide)
  obtain rfl : some 7 = found := by
    have cut : objectForHandle (α := Nat) ⟨[some 7,none],1,2,.managed⟩ 256 = some (some 7) := by decide
    simpa using cut.symm.trans got
  have known := (belongs 7).mp rfl
  exact absurd known (by decide)

end XivelyClient.Handle
