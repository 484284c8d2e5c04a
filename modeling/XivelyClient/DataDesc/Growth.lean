import Mathlib.Data.UInt
import XivelyClient.DataDesc

/-! When a growing buffer holds what it was asked to: the capacity is rounded up in 32 bits and the room
tested in `size_t`. -/
namespace XivelyClient.DataDesc

/-- The outcome an append owes its caller. -/
def AppendsOrKeeps (out : DataDesc) (bytes : List UInt8) : Option (XiState × DataDesc) → Prop
  | some (.ok,out') => out'.data = out.data ++ bytes ∧ out'.length = out.length + bytes.length ∧
      out'.length ≤ out'.capacity.toNat
  | some (_,out') => out' = out
  | none => False

section Strategy

variable (original desired : UInt32)

theorem pow2ReallocStrategy_of_le (enough : desired ≤ original) : pow2ReallocStrategy original desired = original := by
  rw [pow2ReallocStrategy,findPow2Capacity,if_pos enough]

theorem pow2ReallocStrategy_covers : (original ≤ pow2ReallocStrategy original desired ∧
    desired ≤ pow2ReallocStrategy original desired) ↔ desired ≤ original ∨ desired.toNat ≤ 2 ^ 31 := by
  by_cases enough : desired ≤ original
  · rw [pow2ReallocStrategy_of_le original desired enough]
    exact ⟨fun _ => .inl enough,fun _ => ⟨UInt32.le_refl original,enough⟩⟩
  have grows : original < desired := by
    rwa [UInt32.not_le] at enough
  have more := UInt32.lt_iff_toNat_lt.mp grows
  have calculated := findPow2Capacity_toNat original desired grows
  simp only [pow2ReallocStrategy,UInt32.le_iff_toNat_le,calculated]
  split
  · rename_i small
    have reach := Nat.le_pow_clog (b := 2) (by omega) desired.toNat
    exact ⟨fun _ => .inr small,fun _ => ⟨by omega,reach⟩⟩
  · rename_i large
    constructor
    · rintro ⟨_,nothing⟩
      omega
    · intro either
      omega

end Strategy

variable (out : DataDesc) (bytes : List UInt8)

theorem appendsOrKeeps_ok {out' : DataDesc} (data : out'.data = out.data ++ bytes) :
    AppendsOrKeeps out bytes (some (.ok,out')) := by
  refine ⟨data,?_,out'.fits⟩
  rw [length,data,List.length_append,length]

/-- With memory at hand the append goes wrong only by growing past what 32 bits round up to. -/
theorem appendDataResize_granted : AppendsOrKeeps out bytes (out.appendDataResize true bytes) ↔
    out.length + bytes.length ≤ out.capacity.toNat ∨ out.length + bytes.length ≤ 2 ^ 31 := by
  rcases Nat.lt_or_ge (max out.capacity.toNat (2 ^ 31)) (out.length + bytes.length) with large | room
  · rw [appendDataResize_of_large out bytes (by omega) (by omega)]
    constructor
    · exact False.elim
    · intro either
      omega
  · obtain ⟨out',resized,data,_⟩ := appendDataResize_some out bytes room
    rw [resized]
    constructor
    · intro _
      omega
    · intro _
      exact appendsOrKeeps_ok out bytes data

/-- Without memory it goes wrong where the sum of the lengths wraps and so passes for a small one. -/
theorem appendDataResize_refused : AppendsOrKeeps out bytes (out.appendDataResize false bytes) ↔
    out.length + bytes.length ≤ out.capacity.toNat ∨ out.capacity.toNat < (out.length + bytes.length) % 2 ^ 64 := by
  by_cases fit : out.capacity.toNat < (out.length + bytes.length) % 2 ^ 64
  · have tight : ¬ out.willItFit bytes.length = true := by
      rw [willItFit_iff]
      omega
    have refused : out.assureBufLen false bytes.length = some (.outOfMemory,out) := by
      rw [assureBufLen,if_neg tight]
      rfl
    have kept : out.appendDataResize false bytes = some (.outOfMemory,out) := by
      simp only [appendDataResize,refused]
    rw [kept]
    exact ⟨fun _ => .inr fit,fun _ => rfl⟩
  have assured : out.assureBufLen false bytes.length = some (.ok,out) := by
    rw [assureBufLen,if_pos ((willItFit_iff out _).mpr (Nat.not_lt.mp fit))]
  have copied : out.appendDataResize false bytes = (out.copyIn bytes).map ((.ok,·)) := by
    simp only [appendDataResize,assured]
  by_cases room : out.length + bytes.length ≤ out.capacity.toNat
  · have inside : (out.data ++ bytes).length ≤ out.capacity.toNat := by
      rwa [List.length_append]
    rw [copied,copyIn,dif_pos inside]
    exact ⟨fun _ => .inl room,fun _ => appendsOrKeeps_ok out bytes rfl⟩
  · have outside : ¬ (out.data ++ bytes).length ≤ out.capacity.toNat := by
      rwa [List.length_append]
    rw [copied,copyIn,dif_neg outside]
    constructor
    · exact False.elim
    · intro either
      exact either.elim room fit

/-- The strategy answers both sizes, and the append keeps its promise, exactly below the tops of the two
integer types. -/
theorem growth_iff (original desired : UInt32) (allocates : Bool) (out : DataDesc) (bytes : List UInt8) :
    ((original ≤ pow2ReallocStrategy original desired ∧ desired ≤ pow2ReallocStrategy original desired) ↔
        desired ≤ original ∨ desired.toNat ≤ 2 ^ 31) ∧
      (AppendsOrKeeps out bytes (out.appendDataResize allocates bytes) ↔
        out.length + bytes.length ≤ out.capacity.toNat ∨
          (allocates = true ∧ out.length + bytes.length ≤ 2 ^ 31) ∨
            (allocates = false ∧ out.capacity.toNat < (out.length + bytes.length) % 2 ^ 64)) := by
  refine ⟨pow2ReallocStrategy_covers original desired,?_⟩
  cases allocates with
  | true => simpa using appendDataResize_granted out bytes
  | false => simpa using appendDataResize_refused out bytes

/-- Asked for one byte more than `2 ^ 31`, the strategy answers 0: the highest bit is shifted out. -/
theorem pow2ReallocStrategy_wraps : pow2ReallocStrategy 32 (2 ^ 31 + 1) = 0 ∧
    ¬ (32 ≤ pow2ReallocStrategy 32 (2 ^ 31 + 1) ∧ 2 ^ 31 + 1 ≤ pow2ReallocStrategy 32 (2 ^ 31 + 1)) := by
  decide

end XivelyClient.DataDesc
