import Mathlib.Algebra.Group.Nat.Defs
import Mathlib.Algebra.Ring.Int.Defs
import Mathlib.Data.List.Basic
import Mathlib.Tactic.Common

/-! A memory of bytes in which the bytes of a stored pointer stay apart from numbers: each names the block and its place in the
pointer. Numbers have their low byte first, pointers eight bytes. -/
namespace Cells

inductive Cell
  | byte (value : Nat)
  | pointer (block index : Nat)
  deriving DecidableEq, Repr

abbrev Memory := Nat → Cell

def blank : Memory := fun _ => .byte 0

def write (memory : Memory) (offset : Nat) (cells : List Cell) : Memory :=
  fun i => if offset ≤ i then (cells[i - offset]?).getD (memory i) else memory i

/-- The low `size` bytes of a number. -/
def number : Nat → Nat → List Cell
  | 0,_ => []
  | size + 1,value => .byte (value % 256) :: number size (value / 256)

def pointer : Option Nat → List Cell
  | none => List.replicate 8 (.byte 0)
  | some block => (List.range 8).map (.pointer block)

def read (memory : Memory) (offset size : Nat) : List Cell := (List.range size).map fun i => memory (offset + i)

/-- A number, if no byte of a pointer is there. -/
def readNumber (memory : Memory) : Nat → Nat → Option Nat
  | 0,_ => some 0
  | size + 1,offset =>
    match memory offset with
    | .byte low => (readNumber memory size (offset + 1)).map fun high => low + 256 * high
    | .pointer _ _ => none

/-- `NULL` is `some none`; what is no pointer has no result. -/
def readPointer (memory : Memory) (offset : Nat) : Option (Option Nat) :=
  if read memory offset 8 = pointer none then some none
  else match memory offset with
    | .byte _ => none
    | .pointer block _ => if read memory offset 8 = pointer (some block) then some (some block) else none

variable {memory memory' : Memory} {offset size : Nat}

@[simp] theorem length_number (size value : Nat) : (number size value).length = size := by
  induction size generalizing value with
  | zero => rfl
  | succ size ih => rw [number,List.length_cons,ih]

@[simp] theorem length_pointer (block : Option Nat) : (pointer block).length = 8 := by
  cases block with
  | none => rfl
  | some block => rfl

theorem write_outside {cells : List Cell} {i : Nat} (outside : i < offset ∨ offset + cells.length ≤ i) :
    write memory offset cells i = memory i := by
  rw [write]
  split
  · rw [List.getElem?_eq_none (by omega),Option.getD_none]
  · rfl

theorem write_inside {cells : List Cell} {i : Nat} (inside : i < cells.length) :
    write memory offset cells (offset + i) = cells[i] := by
  rw [write,if_pos (by omega),Nat.add_sub_cancel_left,List.getElem?_eq_getElem inside,Option.getD_some]

/-- Writing what is there. -/
theorem write_same {cells : List Cell} (same : read memory offset cells.length = cells) : write memory offset cells = memory := by
  funext i
  by_cases inside : offset ≤ i ∧ i < offset + cells.length
  · obtain ⟨n,rfl⟩ := Nat.exists_eq_add_of_le inside.1
    have bound : n < cells.length := by omega
    rw [write_inside bound]
    have there : (read memory offset cells.length)[n]? = cells[n]? := by rw [same]
    simpa [read,bound] using there.symm
  · exact write_outside (by omega)

theorem read_congr (same : ∀ i < size, memory (offset + i) = memory' (offset + i)) : read memory offset size = read memory' offset size := by
  apply List.map_congr_left
  intro i member
  exact same i (List.mem_range.mp member)

theorem readNumber_congr (same : ∀ i < size, memory (offset + i) = memory' (offset + i)) :
    readNumber memory size offset = readNumber memory' size offset := by
  induction size generalizing offset with
  | zero => rfl
  | succ size ih =>
    have first : memory offset = memory' offset := same 0 (Nat.succ_pos size)
    rw [readNumber,readNumber,first,ih fun i bound => by rw [Nat.add_right_comm offset 1 i]; exact same (i + 1) (by omega)]

theorem readPointer_congr (same : ∀ i < 8, memory (offset + i) = memory' (offset + i)) :
    readPointer memory offset = readPointer memory' offset := by
  have first : memory offset = memory' offset := same 0 (by omega)
  rw [readPointer,readPointer,first,read_congr same]

theorem read_write (cells : List Cell) : read (write memory offset cells) offset cells.length = cells := by
  apply List.ext_getElem
  · simp [read]
  · intro i left right
    simp only [read,List.getElem_map,List.getElem_range]
    exact write_inside right

theorem readPointer_write (block : Option Nat) : readPointer (write memory offset (pointer block)) offset = some block := by
  have whole : read (write memory offset (pointer block)) offset 8 = pointer block := by
    have written := @read_write memory offset (pointer block)
    rwa [length_pointer] at written
  rw [readPointer,whole]
  cases block with
  | none => rfl
  | some block =>
    have first : write memory offset (pointer (some block)) offset = .pointer block 0 :=
      @write_inside memory offset (pointer (some block)) 0 (by simp)
    rw [first,if_neg (by simp [pointer,List.range_succ])]
    exact if_pos rfl

theorem readNumber_pointer {block : Nat} (size : Nat) :
    readNumber (write memory offset (pointer (some block))) (size + 1) offset = none := by
  have first : write memory offset (pointer (some block)) offset = .pointer block 0 :=
    @write_inside memory offset (pointer (some block)) 0 (by simp)
  rw [readNumber,first]

/-- The low bytes of a number that may have been written further. -/
theorem readNumber_number {written : Nat} (value : Nat) (within : size ≤ written) :
    readNumber (write memory offset (number written value)) size offset = some (value % 256 ^ size) := by
  induction size generalizing offset value written memory with
  | zero => simp [readNumber,Nat.mod_one]
  | succ size ih =>
    obtain ⟨written,rfl⟩ : ∃ n, written = n + 1 := ⟨written - 1,by omega⟩
    have first : write memory offset (number (written + 1) value) offset = .byte (value % 256) :=
      @write_inside memory offset (number (written + 1) value) 0 (by simp)
    have rest : write memory offset (number (written + 1) value) =
        write (write memory offset [.byte (value % 256)]) (offset + 1) (number written (value / 256)) := by
      funext i
      by_cases low : i < offset + 1
      · rw [@write_outside _ (offset + 1) (number written (value / 256)) i (.inl low)]
        simp only [write,number]
        split
        · obtain rfl : i = offset := by omega
          simp
        · rfl
      · obtain ⟨n,rfl⟩ := Nat.exists_eq_add_of_le (Nat.le_of_not_lt low)
        simp only [write,number]
        rw [if_pos (by omega),if_pos (by omega),if_pos (by omega),show offset + 1 + n - offset = n + 1 by omega,Nat.add_sub_cancel_left,
          List.getElem?_cons_succ,List.getElem?_cons_succ,List.getElem?_nil,Option.getD_none]
    rw [readNumber,first,rest,ih (value / 256) (by omega)]
    have parts : value % 256 ^ (size + 1) = value % 256 + 256 * (value / 256 % 256 ^ size) := by
      rw [Nat.pow_succ',Nat.mod_mul]
    rw [parts]
    rfl

theorem readNumber_blank (clear : ∀ i < size, memory (offset + i) = .byte 0) : readNumber memory size offset = some 0 := by
  induction size generalizing offset with
  | zero => rfl
  | succ size ih =>
    have first : memory offset = .byte 0 := clear 0 (Nat.succ_pos size)
    rw [readNumber,first,ih fun i bound => by rw [Nat.add_right_comm offset 1 i]; exact clear (i + 1) (by omega)]
    rfl

theorem readNumber_add (a b : Nat) :
    readNumber memory (a + b) offset =
      (readNumber memory a offset).bind fun low => (readNumber memory b (offset + a)).map fun high => low + 256 ^ a * high := by
  induction a generalizing offset with
  | zero => simp [readNumber]
  | succ a ih =>
    rw [show a + 1 + b = a + b + 1 by omega]
    simp only [readNumber]
    cases memory offset with
    | pointer block index => rfl
    | byte low =>
      simp only [ih]
      rw [show offset + 1 + a = offset + (a + 1) by omega]
      cases readNumber memory a (offset + 1) with
      | none => rfl
      | some middle =>
        cases readNumber memory b (offset + (a + 1)) with
        | none => rfl
        | some high =>
          simp only [Option.bind_some,Option.map_some,Option.some_inj]
          rw [Nat.pow_succ',Nat.mul_add,Nat.mul_assoc,Nat.add_assoc]

theorem read_pointer_none (clear : ∀ i < 8, memory (offset + i) = .byte 0) : read memory offset 8 = pointer none := by
  have same : read memory offset 8 = read (fun _ => .byte 0) offset 8 := read_congr fun i bound => clear i bound
  rw [same]
  rfl

theorem readPointer_blank (clear : ∀ i < 8, memory (offset + i) = .byte 0) : readPointer memory offset = some none := by
  rw [readPointer,if_pos (read_pointer_none clear)]

/-- A number where a pointer should be is `NULL` or nothing. -/
theorem readPointer_number (value : Nat) (clear : ∀ i < 8, memory (offset + i) = .byte 0) :
    (value % 256 ^ 4 = 0 → write memory offset (number 4 value) = memory) ∧
      (value % 256 ^ 4 ≠ 0 → readPointer (write memory offset (number 4 value)) offset = none) := by
  have first : write memory offset (number 4 value) offset = .byte (value % 256) :=
    @write_inside memory offset (number 4 value) 0 (by simp)
  constructor
  · intro zero
    apply write_same
    have digits : number 4 value = number 4 0 := by
      simp only [number]
      congr 1
      · congr 1
        omega
      · congr 1
        · congr 1
          omega
        · congr 1
          · congr 1
            omega
          · congr 2
            omega
    rw [length_number,digits]
    have same : read memory offset 4 = read (fun _ => .byte 0) offset 4 := read_congr fun i bound => clear i (by omega)
    rw [same]
    rfl
  · intro nonzero
    rw [readPointer,first,if_neg]
    intro null
    have all : ∀ i < 8, write memory offset (number 4 value) (offset + i) = .byte 0 := by
      intro i bound
      have entry : (read (write memory offset (number 4 value)) offset 8)[i]? = (pointer none)[i]? := by rw [null]
      rw [pointer,List.getElem?_replicate,if_pos bound] at entry
      simpa [read,bound] using entry
    have zero : readNumber (write memory offset (number 4 value)) 4 offset = some 0 :=
      readNumber_blank fun i bound => all i (by omega)
    rw [readNumber_number value (Nat.le_refl 4)] at zero
    exact nonzero (Option.some.inj zero)

end Cells
