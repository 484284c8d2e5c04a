import XivelyClient.Mqtt.Serialiser
import XivelyClient.Mqtt.Wire

/-! What the serialiser writes: the layout of the message, into a buffer of the size it has computed. -/
namespace XivelyClient.Mqtt.Serialiser
open Wire

/-- The bytes of a string; an absent one has none. -/
def bytesOf (desc : Option DataDesc) : List UInt8 := (desc.map DataDesc.data).getD []

/-- A writer that appends `bytes` wherever there is room for them. -/
def Writes (write : DataDesc → Except SerialiserFailure DataDesc) (bytes : List UInt8) : Prop :=
  ∀ out, out.length + bytes.length ≤ out.capacity.toNat →
    ∃ out', write out = .ok out' ∧ out'.data = out.data ++ bytes ∧ out'.capacity = out.capacity

section Writers

theorem Writes.pure : Writes pure [] := fun out _ => ⟨out,rfl,(List.append_nil _).symm,rfl⟩

theorem Writes.bind {write next : DataDesc → Except SerialiserFailure DataDesc} {a b : List UInt8}
    (first : Writes write a) (second : Writes next b) : Writes (fun out => write out >>= next) (a ++ b) := by
  intro out room
  rw [List.length_append] at room
  obtain ⟨mid,written,data,capacity⟩ := first out (by omega)
  have length : mid.length = out.length + a.length := by
    rw [DataDesc.length,data,List.length_append,DataDesc.length]
  obtain ⟨last,written',data',capacity'⟩ := second mid (by rw [length,capacity]; omega)
  refine ⟨last,?_,?_,capacity'.trans capacity⟩
  · change write out >>= next = _
    rw [written]
    exact written'
  · rw [data',data,List.append_assoc]

theorem Writes.ite {p : Prop} [Decidable p] {write : DataDesc → Except SerialiserFailure DataDesc}
    {bytes : List UInt8} (written : p → Writes write bytes) :
    Writes (fun out => if p then write out else .ok out) (if p then bytes else []) := by
  by_cases h : p
  · simpa only [h,if_true] using written h
  · simp only [h,if_false]
    exact .pure

theorem write8_writes (byte : UInt8) : Writes (write8 · byte) [byte] := by
  intro out room
  obtain ⟨out',appended,data,capacity⟩ := out.appendBytes_of_fit [byte] room
  refine ⟨out',?_,data,capacity⟩
  simp only [write8,DataDesc.appendByte,appended]

theorem write16_writes (value : Nat) : Writes (write16 · value) (be16 value) := by
  have high : value >>> 8 = value / 256 := by rw [Nat.shiftRight_eq_div_pow]
  have low : value &&& 0xFF = value % 256 := Nat.and_two_pow_sub_one_eq_mod value 8
  have bytes : be16 value = [UInt8.ofNat (value >>> 8)] ++ [UInt8.ofNat (value &&& 0xFF)] := by
    rw [high,low]
    rfl
  rw [bytes]
  exact (write8_writes _).bind (write8_writes _)

/-- The content of a string behind its length. -/
def copyString (str out : DataDesc) : Except SerialiserFailure DataDesc :=
  match out.appendData (some str) with
  | (.ok,out') => .ok out'
  | _ => .error .error

theorem writeString_writes (desc : Option DataDesc) :
    Writes (writeString · desc) (be16 (bytesOf desc).length ++ bytesOf desc) := by
  cases desc with
  | none =>
    have zero := write16_writes 0
    simpa [bytesOf,writeString] using zero
  | some str =>
    have copies : Writes (copyString str) str.data := by
      intro out room
      obtain ⟨out',appended,data,capacity⟩ := out.appendBytes_of_fit str.data room
      refine ⟨out',?_,data,capacity⟩
      simp only [copyString,DataDesc.appendData,appended]
    exact (write16_writes str.length).bind copies

/-- A string that is short enough goes out as MQTT has it. -/
theorem writeString_text {desc : Option DataDesc} {s : Text} (same : bytesOf desc = s.val) :
    Writes (writeString · desc) (text s) := by
  have written := writeString_writes desc
  rwa [same] at written

private theorem setTopBit (n : Nat) : n &&& 0x7f ||| 0x80 = n % 128 + 128 := by
  have low : n &&& 0x7f = n % 128 := Nat.and_two_pow_sub_one_eq_mod n 7
  have small : n % 128 < 2 ^ 7 := by omega
  have joined := Nat.two_pow_add_eq_or_of_lt small 1
  rw [Nat.mul_one] at joined
  rw [low,Nat.or_comm]
  exact joined.symm.trans (Nat.add_comm _ _)

theorem writeRemainingLength_of_lt (out : DataDesc) {n : Nat} (small : n < 128) :
    writeRemainingLength out n = write8 out (UInt8.ofNat n) >>= pure := by
  have low : n &&& 0x7f = n := by
    rw [show (0x7f : Nat) = 2 ^ 7 - 1 by rfl,Nat.and_two_pow_sub_one_eq_mod,Nat.mod_eq_of_lt small]
  have none_left : n >>> 7 = 0 := by
    rw [Nat.shiftRight_eq_div_pow]
    omega
  rw [writeRemainingLength]
  simp only [low,none_left,Nat.lt_irrefl,if_false,Nat.or_zero]

theorem writeRemainingLength_of_ge (out : DataDesc) {n : Nat} (large : 128 ≤ n) :
    writeRemainingLength out n =
      write8 out (UInt8.ofNat (n % 128 + 128)) >>= (writeRemainingLength · (n / 128)) := by
  have shift : n >>> 7 = n / 128 := by rw [Nat.shiftRight_eq_div_pow]
  have left : 0 < n / 128 := by omega
  rw [writeRemainingLength]
  simp only [shift,left,if_true,setTopBit]

theorem writeRemainingLength_writes (n : Nat) : Writes (writeRemainingLength · n) (Base128.encode n) := by
  induction n using Nat.strongRecOn with
  | ind n ih =>
    rcases Nat.lt_or_ge n 128 with small | large
    · have last := (write8_writes (UInt8.ofNat n)).bind .pure
      rw [Base128.encode_of_lt small]
      simpa only [writeRemainingLength_of_lt _ small,List.append_nil] using last
    · have more := (write8_writes (UInt8.ofNat (n % 128 + 128))).bind (ih (n / 128) (by omega))
      rw [Base128.encode_of_ge large]
      simp only [writeRemainingLength_of_ge _ large]
      exact more

end Writers

end XivelyClient.Mqtt.Serialiser
