import XivelyClient.Backoff.Status

/-! The range of the penalty (`xi_get_backoff_penalty`): a random part as wide as the row before, around the row of the index. -/
namespace XivelyClient.Backoff

section Words

/-! Signed words as integers, as long as nothing overflows. -/

theorem toInt_toInt32 {value : UInt32} (small : value.toNat < 2 ^ 31) : value.toInt32.toInt = value.toNat := by
  have word := BitVec.toInt_eq_toNat_of_lt (x := value.toBitVec) (by rw [UInt32.toNat_toBitVec]; omega)
  exact word

theorem toNat_toUInt32 {value : Int32} (nonneg : 0 ≤ value.toInt) : (value.toUInt32.toNat : Int) = value.toInt := by
  rw [Int32.toNat_toUInt32_of_le (Int32.le_iff_toInt_le.mpr nonneg),Int32.toNatClampNeg]
  omega

theorem toInt_max (a b : Int32) : (max a b).toInt = max a.toInt b.toInt := by
  change (if a ≤ b then b else a).toInt = _
  simp only [max_def,Int32.le_iff_toInt_le]
  split <;> rfl

theorem toInt_add {a b : Int32} (low : -2 ^ 31 ≤ a.toInt + b.toInt) (high : a.toInt + b.toInt < 2 ^ 31) :
    (a + b).toInt = a.toInt + b.toInt := by
  rw [Int32.toInt_add]
  exact Int.bmod_eq_of_le (by omega) (by omega)

theorem toInt_sub {a b : Int32} (low : -2 ^ 31 ≤ a.toInt - b.toInt) (high : a.toInt - b.toInt < 2 ^ 31) :
    (a - b).toInt = a.toInt - b.toInt := by
  rw [Int32.toInt_sub]
  exact Int.bmod_eq_of_le (by omega) (by omega)

theorem toInt_half {value : Int32} (nonneg : 0 ≤ value.toInt) : (value / 2).toInt = value.toInt / 2 := by
  have two : (2 : Int32).toInt = 2 := by decide
  rw [Int32.toInt_div_of_ne_right _ _ (by decide),two,Int.tdiv_eq_ediv_of_nonneg nonneg]

end Words

/-- The status stands at a row of a table that does not fall, with values far below the end of a signed word. -/
structure AtRow (status : Status) (table : List UInt32) (index : Nat) : Prop where
  installed : status.backoffLut.map XiVector.array = some table
  row : status.backoffLutI = index
  inside : index < table.length
  ascending : table.Pairwise (· ≤ ·)
  bounded : ∀ value ∈ table, value.toNat < 2 ^ 30

section Range

variable (table : List UInt32) (index : Nat)

def first : Nat := (table[0]?.getD 0).toNat

def base : Nat := (table[index]?.getD 0).toNat

/-- The row before, and 0 for the first one. -/
def prev : Nat := if index = 0 then 0 else (table[index - 1]?.getD 0).toNat

def half : Nat := max (prev table index / 2) 1

/-- The penalty is no further from the base value than half of the row before, and not below the first row. -/
def Centred (penalty : UInt32) : Prop :=
  max (first table : Int) (base table index - half table index) ≤ penalty.toNat ∧
    (penalty.toNat : Int) ≤ max (first table) (base table index + half table index)

end Range

section Penalty

variable {status : Status} {table : List UInt32} {index : Nat}

theorem AtRow.at? (stands : AtRow status table index) {i : Nat} (inside : i < table.length) :
    Status.at? status.backoffLut i = some (table[i]?.getD 0) ∧ (table[i]?.getD 0).toNat < 2 ^ 30 := by
  obtain ⟨lut,installed,same⟩ := Option.map_eq_some_iff.mp stands.installed
  rw [Status.at?,installed,Option.bind_some,if_pos (by omega),same,Int.toNat_natCast,List.getElem?_eq_getElem inside]
  exact ⟨rfl,stands.bounded _ (List.getElem_mem inside)⟩

theorem AtRow.first_le (stands : AtRow status table index) : first table ≤ base table index := by
  have inside := stands.inside
  rw [first,base,List.getElem?_eq_getElem inside,List.getElem?_eq_getElem (Nat.zero_lt_of_lt inside)]
  obtain rfl | positive := Nat.eq_zero_or_pos index
  · exact le_rfl
  · exact UInt32.le_iff_toNat_le.mp (List.pairwise_iff_getElem.mp stands.ascending 0 index _ inside positive)

/-- The range of the random part. -/
theorem AtRow.fullRange (stands : AtRow status table index) :
    ∃ value, Status.at? status.backoffLut (max (status.backoffLutI - 1) 0) = some value ∧
      (if status.backoffLutI = 0 then 0 else value.toInt32).toInt = prev table index ∧ prev table index < 2 ^ 30 := by
  have inside := stands.inside
  obtain ⟨found,bound⟩ := stands.at? (show index - 1 < table.length by omega)
  have place : max (status.backoffLutI - 1) 0 = ((index - 1 : Nat) : Int) := by rw [stands.row]; omega
  refine ⟨_,by rw [place,found],?_⟩
  rw [prev,stands.row]
  by_cases zero : index = 0
  · rw [if_pos (by omega),if_pos zero]
    exact ⟨by decide,by decide⟩
  · rw [if_neg (by omega),if_neg zero]
    exact ⟨toInt_toInt32 (by omega),bound⟩

/-- Nothing overflows in the sum of the base value and the random part. -/
theorem toInt_backoffValue {fullRange : Int32} {baseValue : UInt32} {p : Nat} (random : UInt32) (range : fullRange.toInt = p)
    (boundPrev : p < 2 ^ 30) (boundBase : baseValue.toNat < 2 ^ 30) :
    (baseValue.toInt32 + (random % (fullRange + 1).toUInt32).toInt32 - max (fullRange / 2) 1).toInt =
      baseValue.toNat + (random.toNat % (p + 1) : Nat) - max (p / 2) 1 := by
  have one : (1 : Int32).toInt = 1 := by decide
  have width : (fullRange + 1).toInt = p + 1 := by rw [toInt_add (by omega) (by omega),range,one]
  have modulus : (fullRange + 1).toUInt32.toNat = p + 1 := by
    have word : ((fullRange + 1).toUInt32.toNat : Int) = (fullRange + 1).toInt := toNat_toUInt32 (by omega)
    omega
  have small : random.toNat % (p + 1) < p + 1 := Nat.mod_lt _ (Nat.succ_pos _)
  have drawn : (random % (fullRange + 1).toUInt32).toInt32.toInt = (random.toNat % (p + 1) : Nat) := by
    rw [toInt_toInt32 (by rw [UInt32.toNat_mod,modulus]; omega),UInt32.toNat_mod,modulus]
  have halved : (max (fullRange / 2) 1).toInt = max ((p : Int) / 2) 1 := by
    rw [toInt_max,toInt_half (by omega),range,one]
  have base : baseValue.toInt32.toInt = baseValue.toNat := toInt_toInt32 (by omega)
  have added : (baseValue.toInt32 + (random % (fullRange + 1).toUInt32).toInt32).toInt =
      baseValue.toNat + (random.toNat % (p + 1) : Nat) := by
    rw [toInt_add (by omega) (by omega),base,drawn]
  rw [toInt_sub (by omega) (by omega),added,halved]
  omega

/-- The penalty is what its comments compute, with the row of the index, the row before and the random number. -/
theorem AtRow.getBackoffPenalty (stands : AtRow status table index) (random : UInt32) :
    ∃ penalty, status.getBackoffPenalty random = some penalty ∧
      (penalty.toNat : Int) = max (first table : Int)
        (base table index + (random.toNat % (prev table index + 1) : Nat) - half table index) := by
  obtain ⟨foundBase,boundBase⟩ := stands.at? stands.inside
  obtain ⟨foundFirst,boundFirst⟩ := stands.at? (Nat.zero_lt_of_lt stands.inside)
  obtain ⟨value,foundPrev,range,boundPrev⟩ := stands.fullRange
  generalize full : (if status.backoffLutI = 0 then 0 else value.toInt32 : Int32) = fullRange at range
  have nonzero : fullRange + 1 ≠ 0 := by
    intro zero
    have one : (1 : Int32).toInt = 1 := by decide
    have width := congrArg Int32.toInt zero
    rw [toInt_add (by omega) (by omega),range,one,Int32.toInt_zero] at width
    omega
  have centred := toInt_backoffValue random range boundPrev boundBase
  have lowest : (table[0]?.getD 0).toInt32.toInt = (first table : Int) := toInt_toInt32 (by omega)
  rw [← stands.row] at foundBase
  change Status.at? status.backoffLut 0 = _ at foundFirst
  have read : status.getBackoffPenalty random = some (max ((table[index]?.getD 0).toInt32 +
      (random % (fullRange + 1).toUInt32).toInt32 - max (fullRange / 2) 1) (table[0]?.getD 0).toInt32).toUInt32 := by
    rw [Status.getBackoffPenalty,foundPrev,Option.bind_some,foundBase,foundFirst]
    simp only [full,Option.bind_some,if_neg nonzero,Option.map_some]
  refine ⟨_,read,?_⟩
  rw [toNat_toUInt32 (by rw [toInt_max,lowest]; omega),toInt_max,centred,lowest,max_comm]
  rfl

end Penalty

/-- The range of the random part has one value too many when the row before is odd: it is the last that leads out of the promised range,
but for a row of 1, where half of it is rounded up. -/
theorem getBackoffPenalty_centred_iff (status : Status) (table : List UInt32) (index : Nat) (stands : AtRow status table index)
    (random : UInt32) :
    (∃ penalty, status.getBackoffPenalty random = some penalty ∧ Centred table index penalty) ↔
      (prev table index % 2 = 1 → prev table index = 1 ∨ random.toNat % (prev table index + 1) ≠ prev table index) := by
  obtain ⟨penalty,read,value⟩ := stands.getBackoffPenalty random
  have lowest := stands.first_le
  have drawn : random.toNat % (prev table index + 1) < prev table index + 1 := Nat.mod_lt _ (Nat.succ_pos _)
  have same : (∃ penalty, status.getBackoffPenalty random = some penalty ∧ Centred table index penalty) ↔
      Centred table index penalty := by
    rw [read]
    exact ⟨fun ⟨_,same,centred⟩ => Option.some.inj same ▸ centred,fun centred => ⟨penalty,rfl,centred⟩⟩
  rw [same,Centred,value,half]
  omega

/-- The rows of the library in the sixth connection attempt. -/
theorem getBackoffPenalty_centred_default : ∃ penalty,
    Status.getBackoffPenalty {backoffLut := some ⟨[0,2,4,8,16,32,64,128,256,512],10,10,.unmanaged⟩,backoffLutI := 5} 16 = some penalty ∧
      Centred [0,2,4,8,16,32,64,128,256,512] 5 penalty := by
  refine (getBackoffPenalty_centred_iff _ _ 5 ⟨rfl,rfl,by decide,by decide,by simp⟩ 16).mpr ?_
  exact fun odd => absurd odd (by decide)

/-- The row before is 3, and the largest random number adds 2. -/
theorem getBackoffPenalty_above : ¬ ∀ (status : Status) (table : List UInt32) (index : Nat), AtRow status table index → ∀ random : UInt32,
    ∃ penalty, status.getBackoffPenalty random = some penalty ∧ Centred table index penalty := by
  intro claim
  obtain ⟨penalty,read,centred⟩ := claim {backoffLut := some ⟨[3,5],2,2,.unmanaged⟩,backoffLutI := 1} [3,5] 1
    ⟨rfl,rfl,by decide,by decide,by simp⟩ 3
  obtain rfl : 7 = penalty := Option.some.inj ((by decide : Status.getBackoffPenalty _ 3 = some 7).symm.trans read)
  exact absurd centred.2 (by decide)

end XivelyClient.Backoff
