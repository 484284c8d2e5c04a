import Mathlib.Data.Nat.Log
import Mathlib.Data.Nat.Size

/-! The highest set bit of a word by smearing it downwards.
`Covers n v x` says that a bit of `x` is set when one of the `n` bits of `v` from
there upwards is; a shift by `n` doubles the reach. -/
namespace HighestBit

variable {w : Nat} {v x : BitVec w} {n : Nat}

def Covers (n : Nat) (v x : BitVec w) : Prop :=
  ∀ i, x.getLsbD i = true ↔ ∃ j < n, v.getLsbD (i + j) = true

theorem Covers.one (v : BitVec w) : Covers 1 v v := by
  intro i
  constructor
  · intro h
    exact ⟨0,by omega,h⟩
  · rintro ⟨j,hj,h⟩
    obtain rfl : j = 0 := by omega
    exact h

theorem Covers.double (h : Covers n v x) : Covers (n + n) v (x ||| x >>> n) := by
  intro i
  rw [BitVec.getLsbD_or,BitVec.getLsbD_ushiftRight,Bool.or_eq_true,h i,h (n + i)]
  constructor
  · rintro (⟨j,hj,hv⟩ | ⟨j,hj,hv⟩)
    · exact ⟨j,by omega,hv⟩
    · exact ⟨n + j,by omega,by rwa [show i + (n + j) = n + i + j by omega]⟩
  · rintro ⟨j,hj,hv⟩
    by_cases low : j < n
    · exact .inl ⟨j,low,hv⟩
    · refine .inr ⟨j - n,by omega,?_⟩
      rwa [show n + i + (j - n) = i + j by omega]

private theorem getLsbD_log2 (nonzero : v ≠ 0) : v.getLsbD v.toNat.log2 = true := by
  have positive : v.toNat ≠ 0 := fun h => nonzero (BitVec.eq_of_toNat_eq (by simpa using h))
  rw [← BitVec.testBit_toNat]
  exact Nat.testBit_log2 positive

private theorem getLsbD_above_log2 {i : Nat} (above : v.toNat.log2 < i) : v.getLsbD i = false := by
  rw [← BitVec.testBit_toNat]
  exact Nat.testBit_lt_two_pow (Nat.lt_of_lt_of_le Nat.lt_log2_self (Nat.pow_le_pow_right (by omega) above))

/-- A bit of a full smear is set exactly up to the highest bit of the word. -/
theorem Covers.getLsbD_iff (h : Covers w v x) (nonzero : v ≠ 0) (i : Nat) :
    x.getLsbD i = true ↔ i ≤ v.toNat.log2 := by
  rw [h i]
  constructor
  · rintro ⟨j,_,hv⟩
    by_contra above
    rw [getLsbD_above_log2 (by omega)] at hv
    exact absurd hv (by simp)
  · intro low
    have top := getLsbD_log2 nonzero
    have inside := BitVec.lt_of_getLsbD top
    exact ⟨v.toNat.log2 - i,by omega,by rwa [Nat.add_sub_cancel' low]⟩

theorem Covers.top (h : Covers w v x) (nonzero : v ≠ 0) :
    x &&& ~~~(x >>> 1) = BitVec.twoPow w v.toNat.log2 := by
  apply BitVec.eq_of_getLsbD_eq
  intro i hi
  have here := h.getLsbD_iff nonzero i
  have above := h.getLsbD_iff nonzero (1 + i)
  rw [BitVec.getLsbD_and,BitVec.getLsbD_not,BitVec.getLsbD_ushiftRight,BitVec.getLsbD_twoPow]
  cases hx : x.getLsbD i <;> cases ha : x.getLsbD (1 + i) <;>
    simp only [hx,ha,Bool.false_eq_true,false_iff,true_iff] at here above <;>
    simp [hi] <;> omega

end HighestBit
