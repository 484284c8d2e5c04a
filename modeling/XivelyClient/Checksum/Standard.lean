import XivelyClient.Checksum.Sha256
import XivelyClient.Lib.BigEndian
import Mathlib.Data.Nat.Prime.Basic
import Mathlib.Data.List.GetD
import Mathlib.Analysis.SpecialFunctions.Pow.Real

/-! The secure hash standard for 256 bits in its own terms: rotations of bit vectors, a recursive message schedule, constants from the
roots of primes, padding to whole blocks. -/
namespace XivelyClient.Checksum.Standard

open BlockFold

/-- The first 32 bits of the fractional part of a root. -/
noncomputable def rootBits (n p : Nat) : Nat := ⌊(p : ℝ) ^ (n : ℝ)⁻¹ * 2 ^ 32⌋₊ % 2 ^ 32

/-- The first 64 primes. -/
def firstPrimes : List Nat := (List.range 312).filter fun n => Nat.Prime n

noncomputable def roundConstant (t : Nat) : UInt32 := UInt32.ofNat (rootBits 3 (firstPrimes.getD t 0))

noncomputable def hashConstant (i : Nat) : UInt32 := UInt32.ofNat (rootBits 2 (firstPrimes.getD i 0))

noncomputable def initialHash : Words :=
  ⟨hashConstant 0,hashConstant 1,hashConstant 2,hashConstant 3,hashConstant 4,hashConstant 5,hashConstant 6,hashConstant 7⟩

def rotr (n : Nat) (x : UInt32) : UInt32 := ⟨x.toBitVec.rotateRight n⟩

def shr (n : Nat) (x : UInt32) : UInt32 := ⟨x.toBitVec >>> n⟩

def bigSigma0 (x : UInt32) : UInt32 := rotr 2 x ^^^ rotr 13 x ^^^ rotr 22 x

def bigSigma1 (x : UInt32) : UInt32 := rotr 6 x ^^^ rotr 11 x ^^^ rotr 25 x

def sigma0 (x : UInt32) : UInt32 := rotr 7 x ^^^ rotr 18 x ^^^ shr 3 x

def sigma1 (x : UInt32) : UInt32 := rotr 17 x ^^^ rotr 19 x ^^^ shr 10 x

/-- A word of a block, most significant byte first. -/
def word (block : List UInt8) (t : Nat) : UInt32 :=
  ⟨(block.getD (4 * t) 0).toBitVec ++ (block.getD (4 * t + 1) 0).toBitVec ++ (block.getD (4 * t + 2) 0).toBitVec ++
    (block.getD (4 * t + 3) 0).toBitVec⟩

/-- The message schedule. -/
def schedule (block : List UInt8) (t : Nat) : UInt32 :=
  if t < 16 then word block t
  else sigma1 (schedule block (t - 2)) + schedule block (t - 7) + sigma0 (schedule block (t - 15)) + schedule block (t - 16)

noncomputable def round (block : List UInt8) (words : Words) (t : Nat) : Words :=
  let t1 := words.h + bigSigma1 words.e + ch words.e words.f words.g + roundConstant t + schedule block t
  let t2 := bigSigma0 words.a + maj words.a words.b words.c
  ⟨t1 + t2,words.a,words.b,words.c,words.d + t1,words.e,words.f,words.g⟩

noncomputable def compress (hash : Words) (block : List UInt8) : Words := hash.add ((List.range 64).foldl (round block) hash)

/-- A bit, the fewest zeros that let the length end a block, and the length in bits. -/
def pad (message : List UInt8) : List UInt8 :=
  message ++ [0x80] ++ List.replicate ((119 - message.length % 64) % 64) 0 ++ BigEndian.bytes 8 (8 * message.length)

noncomputable def secureHash (message : List UInt8) : List UInt8 :=
  (compressAll 64 compress initialHash (pad message)).toList.flatMap fun word => BigEndian.bytes 4 word.toNat

section Constants

theorem rootBits_eq {n p whole bits : Nat} (some' : n ≠ 0) (small : bits < 2 ^ 32) (below : (whole * 2 ^ 32 + bits) ^ n ≤ p * 2 ^ (32 * n))
    (above : p * 2 ^ (32 * n) < (whole * 2 ^ 32 + bits + 1) ^ n) : rootBits n p = bits := by
  have scaled : ((p : ℝ) ^ (n : ℝ)⁻¹ * 2 ^ 32) ^ n = ((p * 2 ^ (32 * n) : Nat) : ℝ) := by
    rw [mul_pow,Real.rpow_inv_natCast_pow (Nat.cast_nonneg p) some',← pow_mul]
    push_cast
    rfl
  have positive : 0 ≤ (p : ℝ) ^ (n : ℝ)⁻¹ * 2 ^ 32 := by positivity
  have floor : ⌊(p : ℝ) ^ (n : ℝ)⁻¹ * 2 ^ 32⌋₊ = whole * 2 ^ 32 + bits := by
    rw [Nat.floor_eq_iff positive]
    constructor
    · apply le_of_pow_le_pow_left₀ some' positive
      rw [scaled]
      exact_mod_cast below
    · apply lt_of_pow_lt_pow_left₀ n (by positivity)
      rw [scaled]
      exact_mod_cast above
  rw [rootBits,floor,Nat.mul_comm,Nat.mul_add_mod,Nat.mod_eq_of_lt small]

theorem firstPrimes_eq : firstPrimes =
    [2,3,5,7,11,13,17,19,23,29,31,37,41,43,47,53,59,61,67,71,73,79,83,89,97,101,103,107,109,113,127,131,137,139,149,151,157,163,167,173,
      179,181,191,193,197,199,211,223,227,229,233,239,241,251,257,263,269,271,277,281,283,293,307,311] := by
  decide +kernel

/-- Whether the bits belong to the root, for some whole part of it. -/
def fits (n p bits : Nat) : Bool :=
  (List.range 20).any fun whole =>
    (whole * 2 ^ 32 + bits) ^ n ≤ p * 2 ^ (32 * n) && p * 2 ^ (32 * n) < (whole * 2 ^ 32 + bits + 1) ^ n

theorem rootBits_of_fits {n p : Nat} {bits : UInt32} (some' : n ≠ 0) (fit : fits n p bits.toNat = true) :
    UInt32.ofNat (rootBits n p) = bits := by
  obtain ⟨whole,_,inside⟩ := List.any_eq_true.mp fit
  obtain ⟨below,above⟩ := Bool.and_eq_true_iff.mp inside
  rw [rootBits_eq some' bits.toNat_lt (of_decide_eq_true below) (of_decide_eq_true above),UInt32.ofNat_toNat]

/-- The table of the code is that of the standard. -/
theorem roundConstant_eq (t : Nat) (inside : t < 64) : roundConstant t = k.getD t 0 := by
  have all : ∀ t < 64, fits 3 (firstPrimes.getD t 0) (k.getD t 0).toNat = true := by
    rw [firstPrimes_eq]
    decide +kernel
  exact rootBits_of_fits (by decide) (all t inside)

theorem initialHash_eq : initialHash = initialState := by
  have all : ∀ i < 8, fits 2 (firstPrimes.getD i 0) (initialState.toList.getD i 0).toNat = true := by
    rw [firstPrimes_eq]
    decide +kernel
  have each (i : Nat) (inside : i < 8) : hashConstant i = initialState.toList.getD i 0 := rootBits_of_fits (by decide) (all i inside)
  rw [initialHash,each 0 (by decide),each 1 (by decide),each 2 (by decide),each 3 (by decide),each 4 (by decide),each 5 (by decide),
    each 6 (by decide),each 7 (by decide)]
  rfl

end Constants

section Transform

theorem rotRight_eq (x : UInt32) (n : Nat) (some' : 0 < n) (inside : n < 32) : rotRight x (UInt32.ofNat n) = rotr n x := by
  apply UInt32.toBitVec_inj.mp
  have amount : (UInt32.ofNat n).toBitVec % 32 = BitVec.ofNat 32 n := by
    apply BitVec.eq_of_toNat_eq
    simp
    omega
  have rest : (32 - UInt32.ofNat n).toBitVec % 32 = BitVec.ofNat 32 (32 - n) := by
    apply BitVec.eq_of_toNat_eq
    simp
    omega
  rw [rotRight,rotr,UInt32.toBitVec_or,UInt32.toBitVec_shiftRight,UInt32.toBitVec_shiftLeft,amount,rest,BitVec.rotateRight_def,
    Nat.mod_eq_of_lt inside,BitVec.shiftLeft_eq',BitVec.ushiftRight_eq',BitVec.toNat_ofNat,BitVec.toNat_ofNat,
    Nat.mod_eq_of_lt (by omega),Nat.mod_eq_of_lt (by omega)]

theorem ep0_eq (x : UInt32) : ep0 x = bigSigma0 x := by
  rw [bigSigma0,← rotRight_eq x 2 (by decide) (by decide),← rotRight_eq x 13 (by decide) (by decide),
    ← rotRight_eq x 22 (by decide) (by decide)]
  rfl

theorem ep1_eq (x : UInt32) : ep1 x = bigSigma1 x := by
  rw [bigSigma1,← rotRight_eq x 6 (by decide) (by decide),← rotRight_eq x 11 (by decide) (by decide),
    ← rotRight_eq x 25 (by decide) (by decide)]
  rfl

theorem sig0_eq (x : UInt32) : sig0 x = sigma0 x := by
  rw [sigma0,← rotRight_eq x 7 (by decide) (by decide),← rotRight_eq x 18 (by decide) (by decide)]
  rfl

theorem sig1_eq (x : UInt32) : sig1 x = sigma1 x := by
  rw [sigma1,← rotRight_eq x 17 (by decide) (by decide),← rotRight_eq x 19 (by decide) (by decide)]
  rfl

/-- A byte that is moved up stays within 32 bits. -/
theorem toNat_shifted (b : UInt8) (n : Nat) (inside : n ≤ 24) : (b.toUInt32 <<< UInt32.ofNat n).toNat = b.toNat <<< n := by
  have small : b.toNat <<< n < 2 ^ 32 := by
    rw [Nat.shiftLeft_eq]
    calc b.toNat * 2 ^ n < 2 ^ 8 * 2 ^ n := Nat.mul_lt_mul_of_pos_right b.toNat_lt (Nat.two_pow_pos n)
      _ = 2 ^ (8 + n) := (Nat.pow_add 2 8 n).symm
      _ ≤ 2 ^ 32 := Nat.pow_le_pow_right (by decide) (by omega)
  rw [UInt32.toNat_shiftLeft,UInt8.toNat_toUInt32,UInt32.toNat_ofNat_of_lt' (by simp only [UInt32.size]; omega),
    Nat.mod_eq_of_lt (show n < 32 by omega),Nat.mod_eq_of_lt small]

theorem wordAt_eq (data : List UInt8) (t : Nat) : wordAt data (4 * t) = word data t := by
  have bytes (b0 b1 b2 b3 : UInt8) : (b0.toUInt32 <<< UInt32.ofNat 24) ||| (b1.toUInt32 <<< UInt32.ofNat 16) |||
      (b2.toUInt32 <<< UInt32.ofNat 8) ||| b3.toUInt32 = ⟨b0.toBitVec ++ b1.toBitVec ++ b2.toBitVec ++ b3.toBitVec⟩ := by
    apply UInt32.toNat_inj.mp
    rw [UInt32.toNat_or,UInt32.toNat_or,UInt32.toNat_or,toNat_shifted b0 24 (by decide),toNat_shifted b1 16 (by decide),
      toNat_shifted b2 8 (by decide)]
    change _ = (b0.toBitVec ++ b1.toBitVec ++ b2.toBitVec ++ b3.toBitVec).toNat
    simp only [BitVec.toNat_append,Nat.shiftLeft_or_distrib,← Nat.shiftLeft_add,UInt8.toNat_toUInt32,UInt8.toNat_toBitVec]
  exact bytes _ _ _ _

theorem nextWord_schedule (data : List UInt8) (n : Nat) (later : 16 ≤ n) :
    nextWord ((List.range n).map (schedule data)) = (List.range (n + 1)).map (schedule data) := by
  have read (back : Nat) (some' : 0 < back) (inside : back ≤ 16) : ((List.range n).map (schedule data)).getD (n - back) 0 =
      schedule data (n - back) := by
    rw [List.getD_eq_getElem _ _ (by simp; omega)]
    simp
  rw [nextWord,List.length_map,List.length_range,List.range_succ,List.map_append,List.map_singleton,
    read 2 (by decide) (by decide),read 7 (by decide) (by decide),read 15 (by decide) (by decide),read 16 (by decide) (by decide),
    sig0_eq,sig1_eq]
  conv_rhs => rw [schedule,if_neg (by omega)]

theorem messageWords_eq (data : List UInt8) : messageWords data = (List.range 64).map (schedule data) := by
  have first : firstWords data = (List.range 16).map (schedule data) := by
    apply List.map_congr_left
    intro t member
    rw [schedule,if_pos (List.mem_range.mp member),wordAt_eq]
  have grown (left : Nat) : nextWord^[left] (firstWords data) = (List.range (16 + left)).map (schedule data) := by
    induction left with
    | zero => exact first
    | succ left ih => rw [Function.iterate_succ_apply',ih,nextWord_schedule data _ (by omega),Nat.add_assoc]
  exact grown 48

theorem transform_eq (state : Words) (data : List UInt8) : transform state data = compress state data := by
  have table : k = (List.range 64).map roundConstant := by
    have read : k = (List.range 64).map fun t => k.getD t 0 := by decide
    rw [read]
    exact List.map_congr_left fun t member => (roundConstant_eq t (List.mem_range.mp member)).symm
  have turns (words : Words) (t : Nat) : turn words (roundConstant t) (schedule data t) = round data words t := by
    rw [turn,round,ep0_eq,ep1_eq]
  rw [transform,compress,messageWords_eq,table,List.zip_map',List.foldl_map]
  simp only [turns]

end Transform

end XivelyClient.Checksum.Standard
