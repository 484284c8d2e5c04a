import Mathlib.Algebra.Group.Nat.Defs
import Mathlib.Tactic.Common

/-! Numbers in base 128, the low digit first, with the top bit set on every byte but the
last. A reader may accept longer forms than the writer's, so `Digits` does not ask the
form to be the shortest. -/
namespace Base128

inductive Digits : List UInt8 → Prop
  | last {b : UInt8} (low : b.toNat < 128) : Digits [b]
  | more {b : UInt8} {ds : List UInt8} (high : 128 ≤ b.toNat) (rest : Digits ds) : Digits (b :: ds)

def value : List UInt8 → Nat
  | [] => 0
  | b :: ds => b.toNat % 128 + 128 * value ds

def encode (n : Nat) : List UInt8 :=
  if n < 128 then [UInt8.ofNat n] else UInt8.ofNat (n % 128 + 128) :: encode (n / 128)
termination_by n
decreasing_by omega

theorem encode_of_lt {n : Nat} (small : n < 128) : encode n = [UInt8.ofNat n] := by
  rw [encode,if_pos small]

theorem encode_of_ge {n : Nat} (large : 128 ≤ n) :
    encode n = UInt8.ofNat (n % 128 + 128) :: encode (n / 128) := by
  rw [encode,if_neg (by omega)]

theorem digits_encode (n : Nat) : Digits (encode n) := by
  induction n using Nat.strongRecOn with
  | ind n ih =>
    rcases Nat.lt_or_ge n 128 with small | large
    · rw [encode_of_lt small]
      apply Digits.last
      rw [UInt8.toNat_ofNat']
      omega
    · rw [encode_of_ge large]
      apply Digits.more
      · rw [UInt8.toNat_ofNat']
        omega
      · exact ih (n / 128) (by omega)

theorem value_encode (n : Nat) : value (encode n) = n := by
  induction n using Nat.strongRecOn with
  | ind n ih =>
    rcases Nat.lt_or_ge n 128 with small | large
    · rw [encode_of_lt small,value,value,UInt8.toNat_ofNat']
      omega
    · rw [encode_of_ge large,value,ih (n / 128) (by omega),UInt8.toNat_ofNat']
      omega

theorem length_encode_le {n k : Nat} (bound : n < 128 ^ (k + 1)) : (encode n).length ≤ k + 1 := by
  induction k generalizing n with
  | zero =>
    rw [encode_of_lt (by simpa using bound)]
    simp
  | succ k ih =>
    rcases Nat.lt_or_ge n 128 with small | large
    · rw [encode_of_lt small]
      simp
    · have part : n / 128 < 128 ^ (k + 1) := by
        rw [Nat.div_lt_iff_lt_mul (by omega)]
        simpa [Nat.pow_succ] using bound
      have tail := ih part
      rw [encode_of_ge large,List.length_cons]
      omega

theorem Digits.length_pos {ds : List UInt8} (digits : Digits ds) : 0 < ds.length := by
  cases digits <;> simp

theorem Digits.value_lt {ds : List UInt8} (digits : Digits ds) : value ds < 128 ^ ds.length := by
  induction digits with
  | last low =>
    simp only [value,List.length_singleton]
    omega
  | more high rest ih =>
    rw [value,List.length_cons,Nat.pow_succ]
    omega

/-- Bytes begin with at most `k` digits, or stop before a last digit, or have no last digit among `k`. -/
theorem classify (k : Nat) (src : List UInt8) :
    (∃ ds rest, src = ds ++ rest ∧ Digits ds ∧ ds.length ≤ k) ∨
      (src.length < k ∧ ∀ b ∈ src, 128 ≤ b.toNat) ∨
      (∃ ds rest, src = ds ++ rest ∧ ds.length = k ∧ ∀ b ∈ ds, 128 ≤ b.toNat) := by
  induction k generalizing src with
  | zero => exact .inr (.inr ⟨[],src,rfl,rfl,by simp⟩)
  | succ k ih =>
    cases src with
    | nil => exact .inr (.inl ⟨by simp,by simp⟩)
    | cons b src =>
      rcases Nat.lt_or_ge b.toNat 128 with low | high
      · exact .inl ⟨[b],src,rfl,.last low,by simp⟩
      · rcases ih src with ⟨ds,rest,rfl,digits,short⟩ | ⟨short,all⟩ | ⟨ds,rest,rfl,long,all⟩
        · exact .inl ⟨b :: ds,rest,rfl,.more high digits,by simpa using short⟩
        · exact .inr (.inl ⟨by simpa using short,by simpa [high] using all⟩)
        · exact .inr (.inr ⟨b :: ds,rest,rfl,by simpa using long,by simpa [high] using all⟩)

/-- The digits at the start of some bytes are determined by them. -/
theorem Digits.append_inj {ds es rest rest' : List UInt8} (digits : Digits ds) (others : Digits es)
    (same : ds ++ rest = es ++ rest') : ds = es ∧ rest = rest' := by
  induction digits generalizing es with
  | last low =>
    cases others with
    | last low' => simpa using same
    | more high' tail =>
      obtain ⟨rfl,_⟩ : _ = _ ∧ _ := by simpa using same
      omega
  | more high tail ih =>
    cases others with
    | last low' =>
      obtain ⟨rfl,_⟩ : _ = _ ∧ _ := by simpa using same
      omega
    | more high' tail' =>
      obtain ⟨rfl,left⟩ : _ = _ ∧ _ := by simpa using same
      obtain ⟨rfl,rfl⟩ := ih tail' left
      exact ⟨rfl,rfl⟩

end Base128
