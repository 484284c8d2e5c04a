import Mathlib.Algebra.Group.Nat.Defs
import Mathlib.Data.List.Basic
import Mathlib.Data.UInt

/-! Numbers as bytes, the most significant one first. -/
namespace BigEndian

/-- So many bytes of a number. -/
def bytes (n value : Nat) : List UInt8 := (List.range n).map fun i => UInt8.ofNat (value / 256 ^ (n - 1 - i))

def value (bytes : List UInt8) : Nat := bytes.foldl (fun number byte => number * 256 + byte.toNat) 0

@[simp] theorem length_bytes (n value : Nat) : (bytes n value).length = n := by simp [bytes]

theorem bytes_succ (n value : Nat) : bytes (n + 1) value = bytes n (value / 256) ++ [UInt8.ofNat value] := by
  rw [bytes,List.range_succ,List.map_append,bytes]
  congr 1
  · apply List.map_congr_left
    intro i member
    have inside := List.mem_range.mp member
    have power : n + 1 - 1 - i = (n - 1 - i) + 1 := by omega
    rw [power,Nat.pow_succ',Nat.div_div_eq_div_mul]
  · simp

theorem value_append (front : List UInt8) (byte : UInt8) : value (front ++ [byte]) = value front * 256 + byte.toNat := by
  rw [value,List.foldl_append]
  rfl

theorem value_lt (bytes : List UInt8) : value bytes < 256 ^ bytes.length := by
  induction bytes using List.reverseRecOn with
  | nil => decide
  | append_singleton front byte ih =>
    have small := byte.toNat_lt
    rw [value_append,List.length_append,List.length_singleton,Nat.pow_succ]
    omega

/-- What the bytes of a number stand for. -/
theorem value_bytes (n number : Nat) : value (bytes n number) = number % 256 ^ n := by
  induction n generalizing number with
  | zero => simp [bytes,value,Nat.mod_one]
  | succ n ih =>
    rw [bytes_succ,value_append,ih,Nat.pow_succ,Nat.mul_comm (256 ^ n) 256,Nat.mod_mul]
    simp [Nat.mul_comm,Nat.add_comm]

end BigEndian
