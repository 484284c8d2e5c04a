import Mathlib.Tactic.Common
import XivelyClient.Lib.HighestBit
import XivelyClient.State

/-! Byte buffers (`xi_data_desc_t`): growth by powers of two and the appends.
An outcome `none` is a write past the end of the allocated bytes. -/
namespace XivelyClient

inductive MemoryType
  | unknown | unmanaged | managed
  deriving DecidableEq, Repr

/-- A descriptor whose `length` bytes lie inside its allocation; the bytes above them are not modelled. -/
@[ext] structure DataDesc where
  data : List UInt8
  capacity : UInt32
  memoryType : MemoryType
  fits : data.length ≤ capacity.toNat
  deriving DecidableEq, Repr

def highestBitFilter (value : UInt32) : UInt32 :=
  let value := value ||| value >>> 1
  let value := value ||| value >>> 2
  let value := value ||| value >>> 4
  let value := value ||| value >>> 8
  let value := value ||| value >>> 16
  value &&& ~~~(value >>> 1)

def findPow2Capacity (original desire : UInt32) : UInt32 :=
  if desire ≤ original then original
  else
    let tmp := highestBitFilter desire
    if tmp < desire then tmp <<< 1 else tmp

def pow2ReallocStrategy (original desired : UInt32) : UInt32 := findPow2Capacity original desired

theorem highestBitFilter_toNat (value : UInt32) (nonzero : value ≠ 0) :
    (highestBitFilter value).toNat = 2 ^ value.toNat.log2 := by
  have smeared := ((((HighestBit.Covers.one value.toBitVec).double).double).double).double.double
  have bits : value.toBitVec ≠ 0 := fun h => nonzero (UInt32.toBitVec_inj.mp h)
  have top := smeared.top bits
  have inside : value.toNat.log2 < 32 := by
    apply (Nat.log2_lt (fun h => nonzero (UInt32.toNat_inj.mp h))).mpr
    exact value.toNat_lt
  have word : (highestBitFilter value).toBitVec = BitVec.twoPow 32 value.toNat.log2 := top
  rw [← UInt32.toNat_toBitVec,word,BitVec.toNat_twoPow]
  exact Nat.mod_eq_of_lt (Nat.pow_lt_pow_right (by omega) inside)

private theorem clog_of_log2 (n : Nat) (positive : n ≠ 0) :
    2 ^ Nat.clog 2 n = if 2 ^ n.log2 < n then 2 ^ n.log2 * 2 else 2 ^ n.log2 := by
  have low : 2 ^ n.log2 ≤ n := Nat.log2_self_le positive
  have high : n < 2 ^ (n.log2 + 1) := Nat.lt_log2_self
  split
  · rename_i strict
    rw [← Nat.pow_succ]
    congr 1
    refine le_antisymm (Nat.clog_le_of_le_pow high.le) ?_
    by_contra small
    have bound : n ≤ 2 ^ n.log2 := (Nat.le_pow_clog (by omega) n).trans
      (Nat.pow_le_pow_right (by omega) (by omega))
    omega
  · have same : n = 2 ^ n.log2 := by omega
    congr 1
    conv_lhs => rw [same]
    exact Nat.clog_pow 2 _ (by omega)

/-- Asked for more than it has, the strategy answers the least power of two that is enough, and 0 when
no 32-bit one is. -/
theorem findPow2Capacity_toNat (original desire : UInt32) (grows : original < desire) :
    (findPow2Capacity original desire).toNat =
      if desire.toNat ≤ 2 ^ 31 then 2 ^ Nat.clog 2 desire.toNat else 0 := by
  have nonzero : desire ≠ 0 := by
    rintro rfl
    exact absurd (UInt32.lt_iff_toNat_lt.mp grows) (by simp)
  have positive : desire.toNat ≠ 0 := fun h => nonzero (UInt32.toNat_inj.mp h)
  have filter := highestBitFilter_toNat desire nonzero
  have high : desire.toNat < 2 ^ (desire.toNat.log2 + 1) := Nat.lt_log2_self
  have low : 2 ^ desire.toNat.log2 ≤ desire.toNat := Nat.log2_self_le positive
  have word := desire.toNat_lt
  have log : desire.toNat.log2 ≤ 31 := by
    have := (Nat.log2_lt positive (k := 32)).mpr word
    omega
  have notLe : ¬ desire ≤ original := by
    simpa [UInt32.le_iff_toNat_le,UInt32.lt_iff_toNat_lt] using grows
  simp only [findPow2Capacity,if_neg notLe,UInt32.lt_iff_toNat_lt,filter]
  rw [clog_of_log2 _ positive]
  split
  · rename_i strict
    rw [UInt32.toNat_shiftLeft,filter]
    rcases Nat.lt_or_ge desire.toNat.log2 31 with small | large
    · have half : 2 ^ desire.toNat.log2 ≤ 2 ^ 30 := Nat.pow_le_pow_right (by omega) (by omega)
      have next : 2 ^ (desire.toNat.log2 + 1) ≤ 2 ^ 31 := Nat.pow_le_pow_right (by omega) (by omega)
      rw [if_pos (by omega)]
      simp [Nat.shiftLeft_eq]
      omega
    · obtain top : desire.toNat.log2 = 31 := by omega
      rw [top] at strict ⊢
      rw [if_neg (by omega)]
      simp [Nat.shiftLeft_eq]
  · rename_i exact_power
    have same : desire.toNat = 2 ^ desire.toNat.log2 := by omega
    have half : 2 ^ desire.toNat.log2 ≤ 2 ^ 31 := Nat.pow_le_pow_right (by omega) log
    rw [if_pos (by omega),filter]

namespace DataDesc

def length (desc : DataDesc) : Nat := desc.data.length

theorem length_lt (desc : DataDesc) : desc.length < 2 ^ 32 :=
  lt_of_le_of_lt desc.fits desc.capacity.toNat_lt

def makeEmptyDescAlloc (capacity : UInt32) : DataDesc := ⟨[],capacity,.managed,by simp⟩

/-- `length + len` is taken in `size_t`, 64 bits wide. -/
def willItFit (desc : DataDesc) (len : Nat) : Bool :=
  !(desc.capacity.toNat < (desc.length + len) % 2 ^ 64)

/-- The old bytes are copied over by the old capacity, so a smaller new buffer is overrun. -/
def realloc (allocates : Bool) (desc : DataDesc) (newCapacity : UInt32) : Option (XiState × DataDesc) :=
  let calculated := pow2ReallocStrategy desc.capacity newCapacity
  if !allocates then some (.outOfMemory,desc)
  else if h : desc.capacity ≤ calculated then
    some (.ok,⟨desc.data,calculated,.managed,desc.fits.trans (UInt32.le_iff_toNat_le.mp h)⟩)
  else none

def assureBufLen (allocates : Bool) (out : DataDesc) (len : Nat) : Option (XiState × DataDesc) :=
  if out.willItFit len then some (.ok,out)
  else out.realloc allocates (UInt32.ofNat (out.length + len))

/-- `memcpy` behind the used bytes. -/
def copyIn (out : DataDesc) (bytes : List UInt8) : Option DataDesc :=
  if h : (out.data ++ bytes).length ≤ out.capacity.toNat then
    some ⟨out.data ++ bytes,out.capacity,out.memoryType,h⟩
  else none

def appendDataResize (allocates : Bool) (out : DataDesc) (bytes : List UInt8) :
    Option (XiState × DataDesc) :=
  match out.assureBufLen allocates bytes.length with
  | some (.ok,out') => (out'.copyIn bytes).map ((.ok,·))
  | some (state,out') => some (state,out')
  | none => none

@[simp] theorem length_makeEmptyDescAlloc (capacity : UInt32) : (makeEmptyDescAlloc capacity).length = 0 := rfl

theorem willItFit_iff (desc : DataDesc) (len : Nat) :
    desc.willItFit len = true ↔ (desc.length + len) % 2 ^ 64 ≤ desc.capacity.toNat := by
  rw [willItFit,Bool.not_eq_true',decide_eq_false_iff_not,Nat.not_lt]

private theorem copyIn_of_le (out : DataDesc) (bytes : List UInt8)
    (room : out.length + bytes.length ≤ out.capacity.toNat) :
    ∃ out', out.copyIn bytes = some out' ∧ out'.data = out.data ++ bytes ∧
      out'.capacity = out.capacity ∧ out'.memoryType = out.memoryType := by
  have h : (out.data ++ bytes).length ≤ out.capacity.toNat := by simpa [length] using room
  exact ⟨⟨out.data ++ bytes,out.capacity,out.memoryType,h⟩,by rw [copyIn,dif_pos h],rfl,rfl,rfl⟩

private theorem copyIn_of_lt (out : DataDesc) (bytes : List UInt8)
    (tight : out.capacity.toNat < out.length + bytes.length) : out.copyIn bytes = none := by
  rw [copyIn,dif_neg]
  simpa [length] using tight

theorem appendDataResize_of_fit (out : DataDesc) (bytes : List UInt8)
    (fit : out.length + bytes.length ≤ out.capacity.toNat) :
    ∃ out', out.appendDataResize true bytes = some (.ok,out') ∧ out'.data = out.data ++ bytes ∧
      out'.capacity = out.capacity ∧ out'.memoryType = out.memoryType := by
  have word := out.capacity.toNat_lt
  obtain ⟨out',copied,data,capacity,memory⟩ := copyIn_of_le out bytes fit
  have kept : out.assureBufLen true bytes.length = some (.ok,out) := by
    rw [assureBufLen,if_pos ((willItFit_iff out _).mpr (by omega))]
  exact ⟨out',by simp [appendDataResize,kept,copied],data,capacity,memory⟩

theorem appendDataResize_of_grow (out : DataDesc) (bytes : List UInt8)
    (tight : out.capacity.toNat < out.length + bytes.length) (small : out.length + bytes.length ≤ 2 ^ 31) :
    ∃ out', out.appendDataResize true bytes = some (.ok,out') ∧ out'.data = out.data ++ bytes ∧
      out'.capacity.toNat = 2 ^ Nat.clog 2 (out.length + bytes.length) ∧ out'.memoryType = .managed := by
  have desire : (UInt32.ofNat (out.length + bytes.length)).toNat = out.length + bytes.length := by
    rw [UInt32.toNat_ofNat']
    omega
  have grows : out.capacity < UInt32.ofNat (out.length + bytes.length) := by
    rwa [UInt32.lt_iff_toNat_lt,desire]
  have calculated := findPow2Capacity_toNat _ _ grows
  rw [desire,if_pos small] at calculated
  have enough := Nat.le_pow_clog (b := 2) (by omega) (out.length + bytes.length)
  have order : out.capacity ≤ pow2ReallocStrategy out.capacity (UInt32.ofNat (out.length + bytes.length)) := by
    rw [UInt32.le_iff_toNat_le,pow2ReallocStrategy,calculated]
    omega
  have grown : ∃ big, out.assureBufLen true bytes.length = some (.ok,big) ∧ big.data = out.data ∧
      big.capacity.toNat = 2 ^ Nat.clog 2 (out.length + bytes.length) ∧ big.memoryType = .managed := by
    refine ⟨⟨out.data,pow2ReallocStrategy out.capacity (UInt32.ofNat (out.length + bytes.length)),.managed,
      out.fits.trans (UInt32.le_iff_toNat_le.mp order)⟩,?_,rfl,calculated,rfl⟩
    have refused : ¬ out.willItFit bytes.length = true := by
      rw [willItFit_iff]
      omega
    rw [assureBufLen,if_neg refused,realloc]
    simp only [Bool.not_true,Bool.false_eq_true,if_false,dif_pos order]
  obtain ⟨big,assured,data,capacity,memory⟩ := grown
  obtain ⟨out',copied,data',capacity',memory'⟩ := copyIn_of_le big bytes (by
    rw [length,data,capacity]
    exact enough)
  exact ⟨out',by simp [appendDataResize,assured,copied],by rw [data',data],by rw [capacity',capacity],
    by rw [memory',memory]⟩

theorem appendDataResize_of_large (out : DataDesc) (bytes : List UInt8)
    (tight : out.capacity.toNat < out.length + bytes.length) (large : 2 ^ 31 < out.length + bytes.length) :
    out.appendDataResize true bytes = none := by
  have assured : out.assureBufLen true bytes.length = none ∨
      ∃ big, out.assureBufLen true bytes.length = some (.ok,big) ∧ big.data = out.data ∧
        (big.capacity = out.capacity ∨ big.capacity.toNat ≤ 2 ^ 31) := by
    rw [assureBufLen]
    split
    · exact .inr ⟨out,rfl,rfl,.inl rfl⟩
    · simp only [realloc,Bool.not_true,Bool.false_eq_true,if_false]
      split
      · rename_i order
        refine .inr ⟨_,rfl,rfl,?_⟩
        rcases Nat.lt_or_ge out.capacity.toNat (UInt32.ofNat (out.length + bytes.length)).toNat with grows | stays
        · refine .inr ?_
          change (findPow2Capacity _ _).toNat ≤ _
          rw [findPow2Capacity_toNat _ _ (UInt32.lt_iff_toNat_lt.mpr grows)]
          split
          · rename_i small
            exact Nat.pow_le_pow_right (by omega) (Nat.clog_le_of_le_pow small)
          · omega
        · refine .inl ?_
          change findPow2Capacity _ _ = _
          rw [findPow2Capacity,if_pos (UInt32.le_iff_toNat_le.mpr stays)]
      · exact .inl rfl
  rcases assured with failed | ⟨big,assured,data,capacity⟩
  · simp [appendDataResize,failed]
  · have overrun : big.capacity.toNat < big.length + bytes.length := by
      rw [length,data]
      rcases capacity with same | bound
      · rwa [same]
      · exact lt_of_le_of_lt bound large
    simp [appendDataResize,assured,copyIn_of_lt _ _ overrun]

/-- The capacity and memory kind after `total` bytes are in a buffer that had `capacity`. -/
private def grown (capacity total : Nat) (memory : MemoryType) : Nat × MemoryType :=
  if total ≤ capacity then (capacity,memory) else (2 ^ Nat.clog 2 total,.managed)

private theorem grown_grown (capacity : Nat) (memory : MemoryType) {n m : Nat} (order : n ≤ m) :
    grown (grown capacity n memory).1 m (grown capacity n memory).2 = grown capacity m memory := by
  by_cases fit : n ≤ capacity
  · simp only [grown,if_pos fit]
  · have reach := Nat.le_pow_clog (b := 2) (by omega) n
    simp only [grown,if_neg fit,if_neg (show ¬ m ≤ capacity by omega)]
    split
    · rename_i covered
      have power : Nat.clog 2 m = Nat.clog 2 n :=
        le_antisymm (Nat.clog_le_of_le_pow covered) (Nat.clog_mono_right 2 order)
      rw [power]
    · rfl

/-- With memory available an append fails exactly beyond both the old capacity and `2 ^ 31` bytes. -/
theorem appendDataResize_some (out : DataDesc) (bytes : List UInt8)
    (room : out.length + bytes.length ≤ max out.capacity.toNat (2 ^ 31)) :
    ∃ out', out.appendDataResize true bytes = some (.ok,out') ∧ out'.data = out.data ++ bytes ∧
      (out'.capacity.toNat,out'.memoryType) =
        grown out.capacity.toNat (out.length + bytes.length) out.memoryType := by
  rcases Nat.lt_or_ge out.capacity.toNat (out.length + bytes.length) with tight | fit
  · obtain ⟨out',result,data,capacity,memory⟩ := appendDataResize_of_grow out bytes tight (by omega)
    exact ⟨out',result,data,by rw [grown,if_neg (by omega),capacity,memory]⟩
  · obtain ⟨out',result,data,capacity,memory⟩ := appendDataResize_of_fit out bytes fit
    exact ⟨out',result,data,by rw [grown,if_pos fit,capacity,memory]⟩

/-- Appending in two pieces is appending at once: the capacity is the least power of two above the
largest length reached, whatever the lengths between. -/
theorem appendDataResize_append (out : DataDesc) (xs ys : List UInt8) :
    out.appendDataResize true (xs ++ ys) =
      match out.appendDataResize true xs with
      | some (_,out') => out'.appendDataResize true ys
      | none => none := by
  have total : out.length + (xs ++ ys).length = out.length + xs.length + ys.length := by
    rw [List.length_append,Nat.add_assoc]
  rcases Nat.lt_or_ge (max out.capacity.toNat (2 ^ 31)) (out.length + xs.length) with large | room
  · rw [appendDataResize_of_large out xs (by omega) (by omega),
      appendDataResize_of_large out (xs ++ ys) (by omega) (by omega)]
  obtain ⟨out',first,data,shape⟩ := appendDataResize_some out xs room
  have length' : out'.length = out.length + xs.length := by rw [length,data,List.length_append,length]
  have capacity' : max out'.capacity.toNat (2 ^ 31) = max out.capacity.toNat (2 ^ 31) := by
    have power : 2 ^ Nat.clog 2 (out.length + xs.length) ≤ 2 ^ 31 ∨
        out.length + xs.length ≤ out.capacity.toNat := by
      by_cases fit : out.length + xs.length ≤ out.capacity.toNat
      · exact .inr fit
      · exact .inl (Nat.pow_le_pow_right (by omega) (Nat.clog_le_of_le_pow (by omega)))
    have capacity : out'.capacity.toNat = (grown out.capacity.toNat (out.length + xs.length) out.memoryType).1 :=
      congrArg Prod.fst shape
    rw [capacity,grown]
    split
    · rfl
    · dsimp only
      omega
  simp only [first]
  rcases Nat.lt_or_ge (max out.capacity.toNat (2 ^ 31)) (out'.length + ys.length) with large | room'
  · rw [appendDataResize_of_large out' ys (by omega) (by omega),
      appendDataResize_of_large out (xs ++ ys) (by omega) (by omega)]
  obtain ⟨two,steps,data₂,shape₂⟩ := appendDataResize_some out' ys (by omega)
  obtain ⟨one,once,data₁,shape₁⟩ := appendDataResize_some out (xs ++ ys) (by omega)
  have capacities : (one.capacity.toNat,one.memoryType) = (two.capacity.toNat,two.memoryType) := by
    rw [shape₁,shape₂,← grown_grown out.capacity.toNat out.memoryType
      (show out.length + xs.length ≤ out.length + (xs ++ ys).length by omega),← shape,total,length']
  rw [once,steps]
  refine congrArg (fun d => some (XiState.ok,d)) (DataDesc.ext ?_ ?_ ?_)
  · rw [data₁,data₂,data,List.append_assoc]
  · exact UInt32.toNat_inj.mp (congrArg Prod.fst capacities)
  · exact congrArg Prod.snd capacities

theorem appendDataResize_ok (out : DataDesc) (bytes : List UInt8) (state : XiState) (out' : DataDesc)
    (appended : out.appendDataResize true bytes = some (state,out')) :
    state = .ok ∧ out'.data = out.data ++ bytes := by
  rcases Nat.lt_or_ge (max out.capacity.toNat (2 ^ 31)) (out.length + bytes.length) with large | room
  · rw [appendDataResize_of_large out bytes (by omega) (by omega)] at appended
    exact absurd appended (by simp)
  · obtain ⟨one,once,data,_⟩ := appendDataResize_some out bytes room
    rw [once] at appended
    obtain ⟨rfl,rfl⟩ : XiState.ok = state ∧ one = out' := by simpa using appended
    exact ⟨rfl,data⟩

def appendBytes (out : DataDesc) (bytes : List UInt8) : XiState × DataDesc :=
  if out.willItFit bytes.length then
    match out.copyIn bytes with
    | some out' => (.ok,out')
    | none => (.bufferOverflow,out)
  else (.bufferOverflow,out)

theorem appendBytes_of_fit (out : DataDesc) (bytes : List UInt8)
    (fit : out.length + bytes.length ≤ out.capacity.toNat) :
    ∃ out', out.appendBytes bytes = (.ok,out') ∧ out'.data = out.data ++ bytes ∧ out'.capacity = out.capacity := by
  have word := out.capacity.toNat_lt
  obtain ⟨out',copied,data,capacity,_⟩ := copyIn_of_le out bytes fit
  have fits : out.willItFit bytes.length = true := by
    simp only [willItFit,Bool.not_eq_true',decide_eq_false_iff_not]
    omega
  exact ⟨out',by rw [appendBytes,if_pos fits,copied],data,capacity⟩

def appendByte (out : DataDesc) (byte : UInt8) : XiState × DataDesc := out.appendBytes [byte]

/-- A NULL `in` is refused. -/
def appendData (out : DataDesc) : Option DataDesc → XiState × DataDesc
  | none => (.invalidParameter,out)
  | some data => out.appendBytes data.data

end DataDesc

end XivelyClient
