import Mathlib.Data.Nat.Digits.Lemmas
import XivelyClient.Lib.JsonText

/-! Integers in decimal digits, as numbers of a JSON text. -/
namespace Json

def digitByte (d : Nat) : UInt8 := UInt8.ofNat (0x30 + d)

def natural (n : Nat) : List UInt8 := if n = 0 then [0x30] else (Nat.digits 10 n).reverse.map digitByte

def decimal (i : Int) : List UInt8 := if i < 0 then 0x2d :: natural i.natAbs else natural i.natAbs

def readNatural (digits : List UInt8) : Option Nat :=
  if !digits.isEmpty && digits.all isDigit then some (digits.foldl (fun n b => n * 10 + (b.toNat - 0x30)) 0) else none

/-- The integer that a token without fraction and exponent is. -/
def readInteger : List UInt8 → Option Int
  | [] => none
  | b :: src => if b = 0x2d then (readNatural src).map Int.negOfNat else (readNatural (b :: src)).map Int.ofNat

theorem digitByte_toNat {d : Nat} (small : d < 10) : (digitByte d).toNat = 0x30 + d := by
  rw [digitByte,UInt8.toNat_ofNat']
  omega

theorem isDigit_digitByte {d : Nat} (small : d < 10) : isDigit (digitByte d) = true := by
  rw [isDigit,Bool.and_eq_true,decide_eq_true_iff,decide_eq_true_iff,UInt8.le_iff_toNat_le,UInt8.le_iff_toNat_le,
    digitByte_toNat small]
  exact ⟨Nat.le_add_right 0x30 d,by change 0x30 + d ≤ 0x39; omega⟩

theorem natural_digits (n : Nat) : ∀ b ∈ natural n, isDigit b = true := by
  rw [natural]
  split
  · intro b member
    rw [List.mem_singleton.mp member]
    rfl
  · intro b member
    obtain ⟨d,inside,rfl⟩ := List.mem_map.mp member
    exact isDigit_digitByte (Nat.digits_lt_base (by omega) (List.mem_reverse.mp inside))

theorem natural_head {n : Nat} (positive : n ≠ 0) : ∃ b rest, natural n = b :: rest ∧ b ≠ 0x30 := by
  have some_digit := Nat.digits_ne_nil_iff_ne_zero (b := 10).mpr positive
  have last := Nat.getLast_digit_ne_zero 10 positive
  have small := Nat.digits_lt_base (b := 10) (m := n) (by omega) (List.getLast_mem some_digit)
  have split := List.dropLast_append_getLast some_digit
  rw [natural,if_neg positive,← split,List.reverse_append,List.reverse_singleton,List.singleton_append,List.map_cons]
  refine ⟨_,_,rfl,fun same => last ?_⟩
  have byte := digitByte_toNat small
  rw [same] at byte
  change 0x30 = 0x30 + _ at byte
  omega

theorem natural_length {n k : Nat} (some_digit : 0 < k) (small : n < 10 ^ k) : (natural n).length ≤ k := by
  rw [natural]
  split
  · exact some_digit
  · rw [List.length_map,List.length_reverse]
    exact (Nat.digits_length_le_iff (by omega) n).mpr small

theorem natural_ne_nil (n : Nat) : natural n ≠ [] := by
  by_cases zero : n = 0
  · rw [natural,if_pos zero]
    exact List.cons_ne_nil _ _
  · obtain ⟨b,rest,head,_⟩ := natural_head zero
    rw [head]
    exact List.cons_ne_nil _ _

theorem validUnsigned_natural (n : Nat) : validUnsigned (natural n) = true := by
  have digits := natural_digits n
  have whole : (natural n).takeWhile isDigit = natural n := List.takeWhile_eq_self_iff.mpr digits
  have ended : (natural n).dropWhile isDigit = [] := List.dropWhile_eq_nil_iff.mpr digits
  have some_digit : (natural n).isEmpty = false := List.isEmpty_eq_false_iff.mpr (natural_ne_nil n)
  have lead : (natural n == [0x30] || (natural n).head? != some 0x30) = true := by
    by_cases zero : n = 0
    · rw [natural,if_pos zero]
      rfl
    · obtain ⟨b,rest,head,apart⟩ := natural_head zero
      rw [head,Bool.or_eq_true]
      exact .inr (by simp [apart])
  simp only [validUnsigned,whole,ended,some_digit,lead,validFraction]
  rfl

theorem numberChar_digit {b : UInt8} (digit : isDigit b = true) : numberChar b = true := by
  simp [numberChar,digit]

theorem minus_not_digit {b : UInt8} (digit : isDigit b = true) : b ≠ 0x2d := by
  rintro rfl
  exact absurd digit (by decide)

theorem validNumber_decimal (i : Int) : validNumber (decimal i) = true := by
  have digits := natural_digits i.natAbs
  have chars : (natural i.natAbs).all numberChar = true := List.all_eq_true.mpr fun b member => numberChar_digit (digits b member)
  rw [decimal]
  split
  · rw [validNumber.eq_def,List.all_cons,chars]
    exact validUnsigned_natural i.natAbs
  · rw [validNumber.eq_def,chars]
    have valid := validUnsigned_natural i.natAbs
    cases digitsAre : natural i.natAbs with
    | nil => exact absurd digitsAre (natural_ne_nil _)
    | cons b rest =>
      rw [digitsAre] at digits valid
      dsimp only
      rw [if_neg (minus_not_digit (digits b (List.mem_cons_self ..))),valid]
      rfl

theorem readNatural_natural (n : Nat) : readNatural (natural n) = some n := by
  have all : (natural n).all isDigit = true := List.all_eq_true.mpr (natural_digits n)
  have some_digit : (natural n).isEmpty = false := List.isEmpty_eq_false_iff.mpr (natural_ne_nil n)
  rw [readNatural,all,some_digit,if_pos (by rfl),natural]
  split
  · rename_i zero
    rw [zero]
    rfl
  · have small : ∀ d ∈ Nat.digits 10 n, d < 10 := fun d member => Nat.digits_lt_base (by omega) member
    have folded : ∀ l : List Nat, (∀ d ∈ l, d < 10) →
        l.foldr (fun d n => n * 10 + ((digitByte d).toNat - 0x30)) 0 = Nat.ofDigits 10 l := by
      intro l
      induction l with
      | nil => exact fun _ => rfl
      | cons d l ih =>
        intro small
        rw [List.foldr_cons,ih fun e member => small e (List.mem_cons_of_mem d member),Nat.ofDigits_cons,
          digitByte_toNat (small d (List.mem_cons_self ..))]
        omega
    rw [List.foldl_map,List.foldl_reverse,folded _ small,Nat.ofDigits_digits]

/-- A number is read back with its sign. -/
theorem readInteger_decimal (i : Int) : readInteger (decimal i) = some i := by
  have read := readNatural_natural i.natAbs
  rw [decimal]
  split
  · rename_i negative
    rw [readInteger,if_pos rfl,read,Option.map_some]
    exact congrArg some (by rw [Int.negOfNat_eq]; change -(i.natAbs : Int) = i; omega)
  · cases digitsAre : natural i.natAbs with
    | nil => exact absurd digitsAre (natural_ne_nil _)
    | cons b rest =>
      have digit := natural_digits i.natAbs
      rw [digitsAre] at read digit
      rw [readInteger,if_neg (minus_not_digit (digit b (List.mem_cons_self ..))),read,Option.map_some]
      exact congrArg some (by change (i.natAbs : Int) = i; omega)

end Json
