import XivelyClient.Cbor.ControlMessage
import Mathlib.Data.List.Pairwise

/-! What a field holds after the getter, whatever type the sender has chosen for its key. -/
namespace XivelyClient.Cbor

open Cells

/-- Ranges of bytes, from the first to behind the last. -/
abbrev Ranges := List (Nat × Nat)

def Apart (xs ys : Ranges) : Prop := ∀ x ∈ xs, ∀ y ∈ ys, x.2 ≤ y.1 ∨ y.2 ≤ x.1

instance (xs ys : Ranges) : Decidable (Apart xs ys) := inferInstanceAs (Decidable (∀ x ∈ xs, ∀ y ∈ ys, x.2 ≤ y.1 ∨ y.2 ≤ x.1))

def Inside (ranges : Ranges) (i : Nat) : Prop := ∃ range ∈ ranges, range.1 ≤ i ∧ i < range.2

theorem Apart.outside {xs ys : Ranges} (apart : Apart xs ys) {i : Nat} (inside : Inside ys i) : ¬ Inside xs i := by
  rintro ⟨x,xMem,xLow,xHigh⟩
  obtain ⟨y,yMem,yLow,yHigh⟩ := inside
  have := apart x xMem y yMem
  omega

namespace Field

def lengthRange (field : Field) : Ranges :=
  match field.kind with
  | .bytes lengthOffset lengthSize => [(lengthOffset,lengthOffset + lengthSize)]
  | _ => []

/-- The bytes of a field and of its length. -/
def own (field : Field) : Ranges :=
  (field.offset,field.offset + match field.kind with
    | .string => 8
    | .bytes _ _ => 8
    | .number size => size
    | .flag => 1) :: field.lengthRange

/-- The bytes that a value of the right type is written to. -/
def reach (field : Field) : Ranges :=
  match field.kind with
  | .string => [(field.offset,field.offset + 8)]
  | .bytes lengthOffset _ => [(field.offset,field.offset + 8),(lengthOffset,lengthOffset + 2)]
  | .number _ => [(field.offset,field.offset + 4)]
  | .flag => [(field.offset,field.offset + 4)]

/-- The bytes that any value is written to, and the length. -/
def span (field : Field) : Ranges := (field.offset,field.offset + 8) :: field.lengthRange

/-- The sizes of numbers and lengths fit what is written. -/
def Proper (field : Field) : Prop :=
  match field.kind with
  | .number size => 1 ≤ size ∧ size ≤ 4
  | .bytes lengthOffset lengthSize => 2 ≤ lengthSize ∧ (lengthOffset + lengthSize ≤ field.offset ∨ field.offset + 8 ≤ lengthOffset)
  | _ => True

instance (field : Field) : Decidable field.Proper := by
  unfold Proper
  split
  · infer_instance
  · infer_instance
  · infer_instance

/-- The block that a pointer field points to. -/
def block (field : Field) (memory : Memory) : Option Nat :=
  match field.kind with
  | .string => (readPointer memory field.offset).join
  | .bytes _ _ => (readPointer memory field.offset).join
  | _ => none

end Field

/-- The number that a value is, 0 where none was sent. -/
def sentNumber : Option CnCbor → Int
  | none => 0
  | some value =>
    match value.type with
    | .uint => value.uint
    | .int => value.uint - 2 ^ 64
    | _ => 0

/-- A flag may also be sent as a truth value. -/
def sentFlag : Option CnCbor → Int
  | none => 0
  | some value => if value.type = .true then 1 else sentNumber (some value)

def CnCbor.IsString (value : CnCbor) : Prop := value.type = .text ∨ value.type = .bytes

/-- A string is `NULL` or an own copy of what was sent with a zero behind, bytes are `NULL` or an own copy with their length, a number
is what was sent. -/
def Right (value : Option CnCbor) (field : Field) (fields : Fields) : Prop :=
  match field.kind with
  | .string => readPointer fields.memory field.offset = some none ∨
      ∃ block sent, readPointer fields.memory field.offset = some (some block) ∧ value = some sent ∧ sent.IsString ∧
        fields.heap[block]? = some (sent.str ++ [0])
  | .bytes lengthOffset lengthSize =>
      (readPointer fields.memory field.offset = some none ∧ readNumber fields.memory lengthSize lengthOffset = some 0) ∨
      ∃ block sent copy, readPointer fields.memory field.offset = some (some block) ∧ value = some sent ∧ sent.IsString ∧
        fields.heap[block]? = some copy ∧ sent.str <+: copy ∧ readNumber fields.memory lengthSize lengthOffset = some sent.str.length
  | .number size => ∃ n : Nat, readNumber fields.memory size field.offset = some n ∧ (n : Int) = sentNumber value
  | .flag => ∃ n : Nat, readNumber fields.memory 1 field.offset = some n ∧ (n : Int) = sentFlag value

namespace Get

def value (get : Get) : Option CnCbor := get.source.bind (·.mapgetString get.field.key)

/-- The getter changes no other field. -/
def Framed (all : List Get) (get : Get) (fields : Fields) : Prop :=
  ∀ other ∈ all, other.field ≠ get.field → ∀ i, Inside other.field.own i → (get.run fields).memory i = fields.memory i

end Get

def FramedAll (all : List Get) : List Get → Fields → Prop
  | [],_ => True
  | get :: rest,fields => get.Framed all fields ∧ FramedAll all rest (get.run fields)

/-- Different fields do not point to the same block. -/
def Alone (fields : Fields) (field other : Field) : Prop :=
  other ≠ field → ∀ block, field.block fields.memory = some block → other.block fields.memory ≠ some block

theorem alone_symm (fields : Fields) : Std.Symm fun a b : Get => Alone fields a.field b.field :=
  ⟨fun _ _ alone distinct block points shared => alone distinct.symm block shared points⟩

/-- What the calls come to: every field is right, points to a block of its own, and was written by its own key alone. -/
structure Typed (all : List Get) (result : Fields) : Prop where
  ran : result = runAll all {}
  right : ∀ get ∈ all, Right get.value get.field result
  framed : FramedAll all all {}
  owned : ∀ get ∈ all, ∀ other ∈ all, Alone result get.field other.field

/-- A word that is stored for this value: for a pointer only zero, for a number only one that was sent as such and is small enough. -/
def WordFits (kind : Kind) (value : CnCbor) (word : Nat) : Prop :=
  match kind with
  | .string => word % 256 ^ 4 = 0
  | .bytes _ _ => word % 256 ^ 4 = 0
  | .number size => if value.type = .uint then word < 256 ^ size else value.type ≠ .int ∧ word % 256 ^ size = 0
  | .flag =>
    if value.type = .uint then word < 256 else if value.type = .true then word = 1 else value.type ≠ .int ∧ word % 256 = 0

/-- The type of the value is one that the field can take: a text for a string, bytes shorter than `2 ^ 16` for bytes, a number in range
for a number. Of other types only what leaves the field empty. -/
def Get.Compatible (get : Get) : Prop :=
  match get.value with
  | none => True
  | some value =>
    match value.type with
    | .false => WordFits get.field.kind value 0
    | .true => WordFits get.field.kind value 1
    | .null | .undef | .uint | .int | .tag | .simple | .double => WordFits get.field.kind value value.uint
    | .bytes => value.str = [] ∨ get.alloc = false ∨ match get.field.kind with
        | .bytes _ _ => value.str.length < 2 ^ 16
        | _ => False
    | .text => get.alloc = false ∨ match get.field.kind with
        | .string => True
        | .bytes _ _ => value.str = []
        | _ => False
    | .bytesChunked | .textChunked | .array | .map | .invalid => True

section Stored

/-! What one call of the getter stores. -/

inductive Stored
  | nothing
  | word (word : Nat)
  | null
  | copy (bytes : List UInt8) (length : Option Nat)

def Stored.store (field : Field) (fields : Fields) : Stored → Fields
  | .nothing => fields
  | .word value => {fields with memory := write fields.memory field.offset (number 4 value)}
  | .null => {fields with memory := write fields.memory field.offset (pointer none)}
  | .copy bytes length =>
    let memory := write fields.memory field.offset (pointer (some fields.heap.length))
    ⟨match field.outLen,length with
      | some len,some length => write memory len (number 2 length)
      | _,_ => memory,fields.heap ++ [bytes]⟩

def Get.stored (get : Get) : Stored :=
  match get.value with
  | none => .nothing
  | some value =>
    match value.type with
    | .false => .word 0
    | .true => .word 1
    | .null | .undef | .uint | .int | .tag | .simple | .double => .word value.uint
    | .bytes => if value.str.length = 0 then .nothing else if get.alloc then .copy value.str (some value.str.length) else .null
    | .text => if get.alloc then .copy (value.str ++ [0]) none else .null
    | .bytesChunked | .textChunked | .array | .map | .invalid => .nothing

theorem Get.run_eq (get : Get) (fields : Fields) : get.run fields = get.stored.store get.field fields := by
  simp only [Get.run,Get.stored,decodeGetvalue,Get.value]
  cases get.source with
  | none => rfl
  | some source =>
    simp only [Option.bind_some]
    cases source.mapgetString get.field.key with
    | none => rfl
    | some value =>
      simp only
      cases value.type with
      | bytes =>
        simp only [allocateAt]
        split
        · rfl
        · cases get.alloc with
          | false => cases get.field.outLen <;> rfl
          | true => cases len : get.field.outLen <;> simp [Stored.store,len]
      | text =>
        simp only [allocateAt]
        cases get.alloc with
        | false => rfl
        | true => cases len : get.field.outLen <;> simp [Stored.store,len]
      | _ => rfl

/-- Whether what is stored in an empty field is right for the value. -/
def Stored.Fits (kind : Kind) (value : Option CnCbor) : Stored → Prop
  | .nothing | .null =>
    match kind with
    | .string => True
    | .bytes _ _ => True
    | .number _ => sentNumber value = 0
    | .flag => sentFlag value = 0
  | .word written =>
    match kind with
    | .string => written % 256 ^ 4 = 0
    | .bytes _ _ => written % 256 ^ 4 = 0
    | .number size => ((written % 256 ^ size : Nat) : Int) = sentNumber value
    | .flag => ((written % 256 : Nat) : Int) = sentFlag value
  | .copy bytes length =>
    match kind with
    | .string => ∃ sent, value = some sent ∧ sent.IsString ∧ bytes = sent.str ++ [0]
    | .bytes _ _ => ∃ sent, value = some sent ∧ sent.IsString ∧ sent.str <+: bytes ∧ length.getD 0 % 2 ^ 16 = sent.str.length
    | _ => False

theorem sentNumber_other {value : CnCbor} (uint : value.type ≠ .uint) (int : value.type ≠ .int) : sentNumber (some value) = 0 := by
  simp only [sentNumber]

theorem uint_lt (value : CnCbor) : value.uint < 2 ^ 64 := by
  obtain ⟨type,uint,str,children⟩ := value
  exact uint.toNat_lt

/-- A number in the low bytes is the one that was sent. -/
theorem word_number_iff {value : CnCbor} {written : Nat} (uint : value.type = .uint → written = value.uint) (range : Nat) :
    ((written % range : Nat) : Int) = sentNumber (some value) ↔
      if value.type = .uint then written % range = written else value.type ≠ .int ∧ written % range = 0 := by
  split
  · rename_i isUint
    rw [sentNumber,isUint]
    simp only [← uint isUint]
    omega
  · rename_i notUint
    by_cases isInt : value.type = .int
    · have := uint_lt value
      rw [sentNumber,isInt]
      simp only [ne_eq,not_true,false_and,iff_false]
      omega
    · rw [sentNumber_other notUint isInt]
      simp only [isInt,ne_eq,not_false_eq_true,true_and]
      omega

theorem word_fits_iff {kind : Kind} {value : CnCbor} {written : Nat} (uint : value.type = .uint → written = value.uint)
    (one : value.type = .true → written = 1) : (Stored.word written).Fits kind (some value) ↔ WordFits kind value written := by
  cases kind with
  | string => exact Iff.rfl
  | bytes lengthOffset lengthSize => exact Iff.rfl
  | number size =>
    rw [Stored.Fits,WordFits,word_number_iff uint,Nat.mod_eq_iff_lt (Nat.ne_of_gt (Nat.pow_pos (by decide)))]
  | flag =>
    by_cases isTrue : value.type = .true
    · simp [Stored.Fits,WordFits,sentFlag,isTrue,one isTrue]
    · simp only [Stored.Fits,WordFits,sentFlag,isTrue,if_false]
      rw [word_number_iff uint,Nat.mod_eq_iff_lt (by decide)]

theorem Get.fits_iff (get : Get) : get.stored.Fits get.field.kind get.value ↔ get.Compatible := by
  rw [Get.stored,Get.Compatible]
  cases get.value with
  | none => cases get.field.kind <;> simp [Stored.Fits,sentNumber,sentFlag]
  | some value =>
    obtain ⟨type,uint,str,children⟩ := value
    cases type with
    | bytes =>
      by_cases empty : str = []
      · cases get.field.kind <;> simp [Stored.Fits,CnCbor.type,CnCbor.str,empty,sentNumber,sentFlag]
      · cases get.alloc <;> cases get.field.kind <;>
          simp [Stored.Fits,CnCbor.type,CnCbor.str,empty,sentNumber,sentFlag,CnCbor.IsString]
    | text =>
      cases get.alloc <;> cases get.field.kind <;>
        simp [Stored.Fits,CnCbor.type,CnCbor.str,sentNumber,sentFlag,CnCbor.IsString,eq_comm]
    | false => exact word_fits_iff (by simp [CnCbor.type]) (by simp [CnCbor.type])
    | true => exact word_fits_iff (by simp [CnCbor.type]) fun _ => rfl
    | null | undef | uint | int | tag | simple | double => exact word_fits_iff (fun _ => rfl) (by simp [CnCbor.type])
    | bytesChunked | textChunked | array | map | invalid => cases get.field.kind <;> simp [Stored.Fits,CnCbor.type,sentNumber,sentFlag]

variable {field : Field} {fields : Fields} {value : Option CnCbor}

/-- Nothing has been written where the field may be. -/
def Field.Clear (field : Field) (fields : Fields) : Prop := ∀ i, Inside field.span i → fields.memory i = .byte 0

theorem Field.Clear.pointer (clear : field.Clear fields) : ∀ i < 8, fields.memory (field.offset + i) = .byte 0 := by
  intro i bound
  exact clear _ ⟨_,List.mem_cons_self,Nat.le_add_right _ _,by simpa using bound⟩

theorem Field.Clear.length {lengthOffset lengthSize : Nat} (clear : field.Clear fields) (kind : field.kind = .bytes lengthOffset lengthSize) :
    ∀ i < lengthSize, fields.memory (lengthOffset + i) = .byte 0 := by
  intro i bound
  exact clear _ ⟨_,List.mem_cons_of_mem _ (by rw [lengthRange,kind]; exact List.mem_singleton_self _),Nat.le_add_right _ _,
    by simpa using bound⟩

theorem right_empty (clear : field.Clear fields) (proper : field.Proper) :
    Right value field fields ↔ Stored.nothing.Fits field.kind value := by
  obtain ⟨key,kind,offset⟩ := field
  cases kind with
  | string => simp [Right,Stored.Fits,readPointer_blank clear.pointer]
  | bytes lengthOffset lengthSize => simp [Right,Stored.Fits,readPointer_blank clear.pointer,readNumber_blank (clear.length rfl)]
  | number size =>
    have zero := readNumber_blank fun i bound => clear.pointer i (Nat.lt_of_lt_of_le bound (Nat.le_trans proper.2 (by omega)))
    simp only at zero
    simp [Right,Stored.Fits,zero,eq_comm]
  | flag =>
    have zero := @readNumber_blank _ _ 1 fun i bound => clear.pointer i (by omega)
    simp only at zero
    simp [Right,Stored.Fits,zero,eq_comm]

theorem store_null (clear : field.Clear fields) : Stored.null.store field fields = fields := by
  have same := @write_same fields.memory field.offset (pointer none) (read_pointer_none clear.pointer)
  simp only [Stored.store,same]

theorem right_word (clear : field.Clear fields) (proper : field.Proper) (written : Nat) :
    Right value field ((Stored.word written).store field fields) ↔ (Stored.word written).Fits field.kind value := by
  have null := readPointer_number written clear.pointer
  by_cases zero : written % 4294967296 = 0
  · obtain ⟨key,kind,offset⟩ := field
    cases kind with
    | string => simp [Right,Stored.Fits,Stored.store,null.1 zero,readPointer_blank clear.pointer,zero]
    | bytes lengthOffset lengthSize =>
      simp [Right,Stored.Fits,Stored.store,null.1 zero,readPointer_blank clear.pointer,readNumber_blank (clear.length rfl),zero]
    | number size => simp [Right,Stored.Fits,Stored.store,readNumber_number written proper.2]
    | flag => simp [Right,Stored.Fits,Stored.store,@readNumber_number fields.memory offset 1 4 written (by omega)]
  · obtain ⟨key,kind,offset⟩ := field
    cases kind with
    | string => simp [Right,Stored.Fits,Stored.store,null.2 zero,zero]
    | bytes lengthOffset lengthSize => simp [Right,Stored.Fits,Stored.store,null.2 zero,zero]
    | number size => simp [Right,Stored.Fits,Stored.store,readNumber_number written proper.2]
    | flag => simp [Right,Stored.Fits,Stored.store,@readNumber_number fields.memory offset 1 4 written (by omega)]

theorem store_length {lengthOffset : Nat} (len : field.outLen = some lengthOffset) (bytes : List UInt8) (length : Nat) :
    ((Stored.copy bytes (some length)).store field fields).memory =
      write (write fields.memory field.offset (pointer (some fields.heap.length))) lengthOffset (number 2 length) := by
  simp only [Stored.store,len]

/-- A pointer that is written is read again, also where a length beside it is written. -/
theorem readPointer_copy (proper : field.Proper) (bytes : List UInt8) (length : Option Nat) :
    readPointer ((Stored.copy bytes length).store field fields).memory field.offset = some (some fields.heap.length) := by
  obtain ⟨key,kind,offset⟩ := field
  cases kind with
  | bytes lengthOffset lengthSize =>
    cases length with
    | none => exact readPointer_write _
    | some length =>
      rw [@store_length _ _ lengthOffset rfl,← @readPointer_write fields.memory offset (some fields.heap.length)]
      apply readPointer_congr
      intro i bound
      have apart := proper.2
      have wide := proper.1
      simp only at apart bound ⊢
      exact write_outside (by rw [length_number]; omega)
  | _ => exact readPointer_write _

/-- Two bytes of a length are written, the others are clear. -/
theorem readNumber_length {lengthOffset lengthSize : Nat} (clear : field.Clear fields) (kind : field.kind = .bytes lengthOffset lengthSize)
    (proper : field.Proper) (bytes : List UInt8) (length : Option Nat) :
    readNumber ((Stored.copy bytes length).store field fields).memory lengthSize lengthOffset = some (length.getD 0 % 2 ^ 16) := by
  have zero := clear.length kind
  obtain ⟨key,kind,offset⟩ := field
  obtain rfl := kind
  have apart := proper.2
  simp only at apart
  have kept : ∀ i < lengthSize, write fields.memory offset (pointer (some fields.heap.length)) (lengthOffset + i) = .byte 0 := by
    intro i bound
    rw [← zero i bound]
    exact write_outside (by rw [length_pointer]; omega)
  cases length with
  | none => exact readNumber_blank kept
  | some length =>
    obtain ⟨more,rfl⟩ := Nat.exists_eq_add_of_le proper.1
    rw [@store_length _ _ lengthOffset rfl,readNumber_add,readNumber_number length (Nat.le_refl 2),readNumber_blank]
    · simp
    · intro i bound
      rw [write_outside (by rw [length_number]; omega),Nat.add_assoc]
      exact kept (2 + i) (by omega)

theorem right_copy (clear : field.Clear fields) (proper : field.Proper) (bytes : List UInt8) (length : Option Nat) :
    Right value field ((Stored.copy bytes length).store field fields) ↔ (Stored.copy bytes length).Fits field.kind value := by
  have pointed := @readPointer_copy _ fields proper bytes length
  have copied : ((Stored.copy bytes length).store field fields).heap[fields.heap.length]? = some bytes := by simp [Stored.store]
  cases kind : field.kind with
  | string =>
    simp only [Right,kind,pointed,Stored.Fits]
    constructor
    · rintro (null | ⟨block,sent,same,isValue,isString,there⟩)
      · cases null
      · obtain rfl := Option.some.inj (Option.some.inj same)
        exact ⟨sent,isValue,isString,Option.some.inj (copied.symm.trans there)⟩
    · rintro ⟨sent,isValue,isString,rfl⟩
      exact .inr ⟨_,sent,rfl,isValue,isString,copied⟩
  | bytes lengthOffset lengthSize =>
    simp only [Right,kind,pointed,readNumber_length clear kind proper,Stored.Fits]
    constructor
    · rintro (⟨null,_⟩ | ⟨block,sent,copy,same,isValue,isString,there,initial,count⟩)
      · cases null
      · obtain rfl := Option.some.inj (Option.some.inj same)
        obtain rfl := Option.some.inj (copied.symm.trans there)
        exact ⟨sent,isValue,isString,initial,Option.some.inj count⟩
    · rintro ⟨sent,isValue,isString,initial,count⟩
      exact .inr ⟨_,sent,bytes,rfl,isValue,isString,copied,initial,by rw [count]⟩
  | number size =>
    obtain ⟨more,rfl⟩ := Nat.exists_eq_add_of_le' (show 1 ≤ size by simpa [Field.Proper,kind] using (by simpa [Field.Proper,kind] using proper : _ ∧ _).1)
    simp [Right,kind,Stored.Fits,Stored.store,Field.outLen,readNumber_pointer]
  | flag => simp [Right,kind,Stored.Fits,Stored.store,Field.outLen,@readNumber_pointer _ _ _ 0]

/-- One call on an empty field. -/
theorem right_run_iff {get : Get} (clear : get.field.Clear fields) (proper : get.field.Proper) :
    Right get.value get.field (get.run fields) ↔ get.Compatible := by
  rw [← get.fits_iff,get.run_eq]
  cases get.stored with
  | nothing => exact right_empty clear proper
  | word written => exact right_word clear proper written
  | null =>
    rw [store_null clear]
    exact right_empty clear proper
  | copy bytes length => exact right_copy clear proper bytes length

/-- What fits stays within the reach of the field. -/
theorem run_outside {get : Get} (clear : get.field.Clear fields) (compatible : get.Compatible) {i : Nat}
    (outside : ¬ Inside get.field.reach i) : (get.run fields).memory i = fields.memory i := by
  rw [← get.fits_iff] at compatible
  rw [get.run_eq]
  generalize get.stored = stored at compatible
  obtain ⟨source,⟨key,kind,offset⟩,alloc⟩ := get
  cases stored with
  | nothing => rfl
  | null => rw [store_null clear]
  | word written =>
    apply write_outside
    rw [length_number]
    cases kind <;> simp [Inside,Field.reach] at outside <;> simp only <;> omega
  | copy bytes length =>
    cases kind with
    | string =>
      apply write_outside
      rw [length_pointer]
      simp [Inside,Field.reach] at outside
      simp only
      omega
    | bytes lengthOffset lengthSize =>
      simp [Inside,Field.reach] at outside
      have unwritten : write fields.memory offset (pointer (some fields.heap.length)) i = fields.memory i := by
        apply write_outside
        rw [length_pointer]
        omega
      cases length with
      | none => exact unwritten
      | some length =>
        rw [← unwritten]
        apply write_outside
        rw [length_number]
        omega
    | number size => exact compatible.elim
    | flag => exact compatible.elim

end Stored

section Rest

variable {fields fields' : Fields} {field : Field} {value : Option CnCbor}

theorem Field.pointer_congr (kind : field.kind = .string ∨ ∃ lengthOffset lengthSize, field.kind = .bytes lengthOffset lengthSize)
    (same : ∀ i, Inside field.own i → fields'.memory i = fields.memory i) :
    readPointer fields'.memory field.offset = readPointer fields.memory field.offset := by
  apply readPointer_congr
  intro i bound
  apply same
  refine ⟨_,List.mem_cons_self,Nat.le_add_right _ _,?_⟩
  obtain kind | ⟨_,_,kind⟩ := kind
  · simpa [kind] using bound
  · simpa [kind] using bound

theorem Field.block_congr (same : ∀ i, Inside field.own i → fields'.memory i = fields.memory i) :
    field.block fields'.memory = field.block fields.memory := by
  rw [Field.block,Field.block]
  cases kind : field.kind with
  | string => rw [pointer_congr (.inl kind) same]
  | bytes lengthOffset lengthSize => rw [pointer_congr (.inr ⟨_,_,kind⟩) same]
  | number size => rfl
  | flag => rfl

/-- A field stays right as long as its own bytes and its block do. -/
theorem right_congr (same : ∀ i, Inside field.own i → fields'.memory i = fields.memory i)
    (kept : ∀ block, field.block fields.memory = some block → fields'.heap[block]? = fields.heap[block]?) :
    Right value field fields' ↔ Right value field fields := by
  cases kind : field.kind with
  | string =>
    have pointer := Field.pointer_congr (.inl kind) same
    simp only [Right,kind,pointer]
    apply or_congr_right
    apply exists_congr
    intro block
    apply exists_congr
    intro sent
    apply and_congr_right
    intro points
    rw [kept block (by simp [Field.block,kind,points])]
  | bytes lengthOffset lengthSize =>
    have pointer := Field.pointer_congr (.inr ⟨_,_,kind⟩) same
    have length : readNumber fields'.memory lengthSize lengthOffset = readNumber fields.memory lengthSize lengthOffset := by
      apply readNumber_congr
      intro i bound
      apply same
      refine ⟨(lengthOffset,lengthOffset + lengthSize),List.mem_cons_of_mem _ ?_,Nat.le_add_right _ _,?_⟩
      · rw [Field.lengthRange,kind]
        exact List.mem_singleton_self _
      · simpa using bound
    simp only [Right,kind,pointer,length]
    apply or_congr_right
    apply exists_congr
    intro block
    apply exists_congr
    intro sent
    apply exists_congr
    intro copy
    apply and_congr_right
    intro points
    rw [kept block (by simp [Field.block,kind,points])]
  | number size =>
    have number : readNumber fields'.memory size field.offset = readNumber fields.memory size field.offset := by
      apply readNumber_congr
      intro i bound
      apply same
      exact ⟨_,List.mem_cons_self,Nat.le_add_right _ _,by simpa [kind] using bound⟩
    simp only [Right,kind,number]
  | flag =>
    have number : readNumber fields'.memory 1 field.offset = readNumber fields.memory 1 field.offset := by
      apply readNumber_congr
      intro i bound
      apply same
      exact ⟨_,List.mem_cons_self,Nat.le_add_right _ _,by simpa [kind] using bound⟩
    simp only [Right,kind,number]

theorem run_heap (get : Get) (fields : Fields) : fields.heap <+: (get.run fields).heap := by
  rw [get.run_eq]
  cases get.stored with
  | copy bytes length => exact List.prefix_append _ _
  | _ => exact List.prefix_refl _

theorem runAll_heap (rest : List Get) (fields : Fields) : fields.heap <+: (runAll rest fields).heap := by
  induction rest generalizing fields with
  | nil => exact List.prefix_refl _
  | cons get rest ih => exact (run_heap get fields).trans (ih (get.run fields))

/-- Framed calls leave the bytes of another field alone. -/
theorem runAll_same {all rest : List Get} {owner : Get} (member : owner ∈ all) (other : ∀ get ∈ rest, owner.field ≠ get.field)
    (framed : FramedAll all rest fields) : ∀ i, Inside owner.field.own i → (runAll rest fields).memory i = fields.memory i := by
  induction rest generalizing fields with
  | nil =>
    intro i inside
    rfl
  | cons get rest ih =>
    intro i inside
    have first := framed.1 owner member (other get List.mem_cons_self) i inside
    rw [← first]
    exact ih (fun get member => other get (List.mem_cons_of_mem _ member)) framed.2 i inside

/-- The block a call on an empty field points to is the one it has allocated. -/
theorem block_run {get : Get} (clear : get.field.Clear fields) (proper : get.field.Proper) {block : Nat}
    (points : get.field.block (get.run fields).memory = some block) :
    block = fields.heap.length ∧ (get.run fields).heap.length = fields.heap.length + 1 := by
  rw [get.run_eq] at points ⊢
  have blank := readPointer_blank clear.pointer
  have nowhere : get.field.block fields.memory = none := by
    rw [Field.block,blank]
    cases get.field.kind <;> rfl
  cases stored : get.stored with
  | nothing => simp [stored,Stored.store,nowhere] at points
  | null =>
    rw [stored,store_null clear,nowhere] at points
    cases points
  | word written =>
    have null := readPointer_number written clear.pointer
    rw [stored,Field.block,Stored.store] at points
    by_cases zero : written % 4294967296 = 0
    · simp only [null.1 zero,blank] at points
      cases kind : get.field.kind <;> simp [kind] at points
    · simp only [null.2 zero] at points
      cases kind : get.field.kind <;> simp [kind] at points
  | copy bytes length =>
    rw [stored,Field.block,readPointer_copy proper] at points
    constructor
    · cases kind : get.field.kind <;> simp [kind] at points <;> exact points.symm
    · simp [Stored.store]

/-- The calls of a list have their fields to themselves, those to come find theirs empty. -/
structure Laid (all rest : List Get) : Prop where
  sub : ∀ get ∈ rest, get ∈ all
  proper : ∀ get ∈ rest, get.field.Proper
  later : rest.Pairwise fun a b => a.field ≠ b.field ∧ Apart a.field.reach b.field.span
  apart : ∀ get ∈ rest, ∀ other ∈ all, other.field ≠ get.field → Apart get.field.reach other.field.own

variable {all rest : List Get} {get : Get}

theorem Laid.tail (laid : Laid all (get :: rest)) : Laid all rest :=
  ⟨fun g member => laid.sub g (List.mem_cons_of_mem _ member),fun g member => laid.proper g (List.mem_cons_of_mem _ member),
    (List.pairwise_cons.mp laid.later).2,fun g member => laid.apart g (List.mem_cons_of_mem _ member)⟩

theorem Laid.framed (laid : Laid all (get :: rest)) (clear : get.field.Clear fields) (compatible : get.Compatible) :
    get.Framed all fields := by
  intro other member distinct i inside
  exact run_outside clear compatible ((laid.apart get List.mem_cons_self other member distinct).outside inside)

theorem Laid.clear (laid : Laid all (get :: rest)) (clear : ∀ g ∈ get :: rest, g.field.Clear fields) (compatible : get.Compatible) :
    ∀ g ∈ rest, g.field.Clear (get.run fields) := by
  intro g member i inside
  have apart := ((List.pairwise_cons.mp laid.later).1 g member).2
  rw [run_outside (clear get List.mem_cons_self) compatible (apart.outside inside)]
  exact clear g (List.mem_cons_of_mem _ member) i inside

/-- The head's field is in the end what it was after its call. -/
theorem Laid.right_head (laid : Laid all (get :: rest)) (clear : get.field.Clear fields) (framed : FramedAll all rest (get.run fields)) :
    Right get.value get.field (runAll rest (get.run fields)) ↔ get.Compatible := by
  have proper := laid.proper get List.mem_cons_self
  rw [← right_run_iff clear proper]
  apply right_congr
  · exact runAll_same (laid.sub get List.mem_cons_self) (fun g member => ((List.pairwise_cons.mp laid.later).1 g member).1) framed
  · intro block points
    obtain ⟨rfl,longer⟩ := block_run clear proper points
    obtain ⟨more,heap⟩ := runAll_heap rest (get.run fields)
    rw [← heap,List.getElem?_append_left (by omega)]

/-- By induction on the calls to come: all are right and framed exactly if all are compatible. -/
theorem Laid.typed_iff (laid : Laid all rest) (clear : ∀ get ∈ rest, get.field.Clear fields) :
    ((∀ get ∈ rest, Right get.value get.field (runAll rest fields)) ∧ FramedAll all rest fields) ↔ ∀ get ∈ rest, get.Compatible := by
  induction rest generalizing fields with
  | nil => simp [FramedAll]
  | cons get rest ih =>
    have head := clear get List.mem_cons_self
    rw [List.forall_mem_cons,List.forall_mem_cons]
    constructor
    · rintro ⟨⟨right,rights⟩,framed,frames⟩
      have compatible := (laid.right_head head frames).mp right
      exact ⟨compatible,(ih laid.tail (laid.clear clear compatible)).mp ⟨rights,frames⟩⟩
    · rintro ⟨compatible,others⟩
      obtain ⟨rights,frames⟩ := (ih laid.tail (laid.clear clear compatible)).mpr others
      exact ⟨⟨(laid.right_head head frames).mpr compatible,rights⟩,laid.framed head compatible,frames⟩

/-- Blocks are allocated in turn, so no two fields share one. -/
theorem Laid.owned (laid : Laid all rest) (clear : ∀ get ∈ rest, get.field.Clear fields) (compatible : ∀ get ∈ rest, get.Compatible) :
    (∀ get ∈ rest, ∀ block, get.field.block (runAll rest fields).memory = some block → fields.heap.length ≤ block) ∧
      rest.Pairwise fun a b => ∀ block, a.field.block (runAll rest fields).memory = some block →
        b.field.block (runAll rest fields).memory ≠ some block := by
  induction rest generalizing fields with
  | nil => simp
  | cons get rest ih =>
    have head := clear get List.mem_cons_self
    obtain ⟨compatibleHead,compatibles⟩ := List.forall_mem_cons.mp compatible
    have clears := laid.clear clear compatibleHead
    obtain ⟨fresh,distinct⟩ := ih laid.tail clears compatibles
    have frames := ((laid.tail.typed_iff clears).mpr compatibles).2
    have same : get.field.block (runAll rest (get.run fields)).memory = get.field.block (get.run fields).memory :=
      Field.block_congr (runAll_same (laid.sub get List.mem_cons_self) (fun g member => ((List.pairwise_cons.mp laid.later).1 g member).1) frames)
    have longer := (run_heap get fields).length_le
    constructor
    · rw [List.forall_mem_cons]
      constructor
      · intro block points
        have there := (same.symm.trans points)
        exact Nat.le_of_eq (block_run head (laid.proper get List.mem_cons_self) there).1.symm
      · intro g member block points
        exact Nat.le_trans longer (fresh g member block points)
    · rw [List.pairwise_cons]
      refine ⟨?_,distinct⟩
      intro g member block points shared
      obtain ⟨rfl,more⟩ := block_run head (laid.proper get List.mem_cons_self) (same.symm.trans points)
      have := fresh g member _ shared
      omega

/-- Fields from an empty message on. -/
theorem typed_iff (laid : Laid all all) : Typed all (runAll all {}) ↔ ∀ get ∈ all, get.Compatible := by
  have clear : ∀ get ∈ all, get.field.Clear {} := fun _ _ _ _ => rfl
  constructor
  · rintro ⟨_,right,framed,_⟩
    exact (laid.typed_iff clear).mp ⟨right,framed⟩
  · intro compatible
    obtain ⟨right,framed⟩ := (laid.typed_iff clear).mpr compatible
    refine ⟨rfl,right,framed,?_⟩
    have pairs := (laid.owned clear compatible).2
    have symmetric := alone_symm (runAll all {})
    apply List.Pairwise.forall_of_forall
    · intro _ _ distinct
      exact absurd rfl distinct
    · apply pairs.imp
      intro a b apart _
      exact apart

end Rest

section Layout

/-! The fields of a structure, and of an array of structures. -/

structure Layout (fields : List Field) : Prop where
  proper : ∀ field ∈ fields, field.Proper
  later : fields.Pairwise fun a b => a ≠ b ∧ Apart a.reach b.span
  apart : ∀ field ∈ fields, ∀ other ∈ fields, other ≠ field → Apart field.reach other.own

theorem Layout.laid {all : List Get} (layout : Layout (all.map (·.field))) : Laid all all where
  sub _ member := member
  proper _ member := layout.proper _ (List.mem_map_of_mem member)
  later := List.pairwise_map.mp layout.later
  apart _ member _ otherMember := layout.apart _ (List.mem_map_of_mem member) _ (List.mem_map_of_mem otherMember)

theorem layout_fileChunk : Layout fileChunk := ⟨by decide,by decide,by decide⟩

theorem layout_fileDescExt : Layout fileDescExt := ⟨by decide,by decide,by decide⟩

def shiftRange (base : Nat) (range : Nat × Nat) : Nat × Nat := (base + range.1,base + range.2)

variable {field other : Field} {base size : Nat} {fields : List Field}

theorem own_shift : (field.shift base).own = field.own.map (shiftRange base) := by
  obtain ⟨key,kind,offset⟩ := field
  cases kind <;> simp [Field.shift,Field.own,Field.lengthRange,shiftRange,Nat.add_assoc]

theorem reach_shift : (field.shift base).reach = field.reach.map (shiftRange base) := by
  obtain ⟨key,kind,offset⟩ := field
  cases kind <;> simp [Field.shift,Field.reach,shiftRange,Nat.add_assoc]

theorem span_shift : (field.shift base).span = field.span.map (shiftRange base) := by
  obtain ⟨key,kind,offset⟩ := field
  cases kind <;> simp [Field.shift,Field.span,Field.lengthRange,shiftRange,Nat.add_assoc]

theorem apart_shift {xs ys : Ranges} (apart : Apart xs ys) : Apart (xs.map (shiftRange base)) (ys.map (shiftRange base)) := by
  intro x xMem y yMem
  obtain ⟨x,xIn,rfl⟩ := List.mem_map.mp xMem
  obtain ⟨y,yIn,rfl⟩ := List.mem_map.mp yMem
  have := apart x xIn y yIn
  simp only [shiftRange]
  omega

theorem shift_injective (base : Nat) : Function.Injective (Field.shift base) := by
  rintro ⟨key,kind,offset⟩ ⟨key',kind',offset'⟩ same
  cases kind <;> cases kind' <;> simp_all [Field.shift]

theorem proper_shift (proper : field.Proper) : (field.shift base).Proper := by
  obtain ⟨key,kind,offset⟩ := field
  cases kind with
  | bytes lengthOffset lengthSize =>
    simp only [Field.Proper,Field.shift] at proper ⊢
    omega
  | _ => exact proper

theorem Layout.shift (layout : Layout fields) (base : Nat) : Layout (fields.map (Field.shift base)) where
  proper field member := by
    obtain ⟨field,inside,rfl⟩ := List.mem_map.mp member
    exact proper_shift (layout.proper field inside)
  later := by
    rw [List.pairwise_map]
    apply layout.later.imp
    rintro a b ⟨distinct,apart⟩
    rw [reach_shift,span_shift]
    exact ⟨(shift_injective base).ne distinct,apart_shift apart⟩
  apart field member other otherMember distinct := by
    obtain ⟨field,inside,rfl⟩ := List.mem_map.mp member
    obtain ⟨other,otherInside,rfl⟩ := List.mem_map.mp otherMember
    rw [reach_shift,own_shift]
    exact apart_shift (layout.apart field inside other otherInside fun same => distinct (by rw [same]))

/-- No field goes beyond the structure. -/
def Field.Within (size : Nat) (field : Field) : Prop :=
  field.offset < size ∧ ∀ range ∈ field.own ++ field.reach ++ field.span, range.2 ≤ size

instance (size : Nat) (field : Field) : Decidable (field.Within size) := inferInstanceAs (Decidable (_ ∧ ∀ _ ∈ _, _))

/-- Ranges of different structures of an array. -/
theorem apart_entries {xs ys : Ranges} {t u : Nat} (below : ∀ x ∈ xs, x.2 ≤ size) (above : ∀ y ∈ ys, y.2 ≤ size) (distinct : t ≠ u) :
    Apart (xs.map (shiftRange (size * t))) (ys.map (shiftRange (size * u))) := by
  intro x xMem y yMem
  obtain ⟨x,xIn,rfl⟩ := List.mem_map.mp xMem
  obtain ⟨y,yIn,rfl⟩ := List.mem_map.mp yMem
  have low := below x xIn
  have high := above y yIn
  simp only [shiftRange]
  obtain less | more := Nat.lt_or_gt_of_ne distinct
  · have next := Nat.mul_le_mul_left size (Nat.succ_le_of_lt less)
    rw [Nat.mul_succ] at next
    omega
  · have next := Nat.mul_le_mul_left size (Nat.succ_le_of_lt more)
    rw [Nat.mul_succ] at next
    omega

/-- By cases on whether two fields are of the same structure. -/
theorem Layout.entries (layout : Layout fields) (within : ∀ field ∈ fields, field.Within size) (n : Nat) :
    Layout ((List.range n).flatMap fun t => fields.map (Field.shift (size * t))) where
  proper field member := by
    obtain ⟨t,_,inside⟩ := List.mem_flatMap.mp member
    exact (layout.shift (size * t)).proper field inside
  later := by
    rw [List.pairwise_flatMap]
    refine ⟨fun t _ => (layout.shift (size * t)).later,?_⟩
    apply List.pairwise_lt_range.imp
    intro t u less a aMem b bMem
    obtain ⟨a,aIn,rfl⟩ := List.mem_map.mp aMem
    obtain ⟨b,bIn,rfl⟩ := List.mem_map.mp bMem
    obtain ⟨aOffset,aWithin⟩ := within a aIn
    obtain ⟨bOffset,bWithin⟩ := within b bIn
    constructor
    · intro same
      have offsets : size * t + a.offset = size * u + b.offset := congrArg Field.offset same
      have next := Nat.mul_le_mul_left size (Nat.succ_le_of_lt less)
      rw [Nat.mul_succ] at next
      omega
    · rw [reach_shift,span_shift]
      apply apart_entries
      · intro x member
        exact aWithin x (by simp [member])
      · intro y member
        exact bWithin y (by simp [member])
      · exact Nat.ne_of_lt less
  apart a aMem b bMem distinct := by
    obtain ⟨t,_,aEntry⟩ := List.mem_flatMap.mp aMem
    obtain ⟨u,_,bEntry⟩ := List.mem_flatMap.mp bMem
    by_cases same : t = u
    · obtain rfl := same
      exact (layout.shift (size * t)).apart a aEntry b bEntry distinct
    · obtain ⟨a,aIn,rfl⟩ := List.mem_map.mp aEntry
      obtain ⟨b,bIn,rfl⟩ := List.mem_map.mp bEntry
      rw [reach_shift,own_shift]
      apply apart_entries
      · intro x member
        exact (within a aIn).2 x (by simp [member])
      · intro y member
        exact (within b bIn).2 y (by simp [member])
      · exact same

theorem gets_field (source : Option CnCbor) (alloc : Nat → Bool) :
    (gets source base fields alloc).map (·.field) = fields.map (Field.shift base) := by
  apply List.ext_getElem
  · simp [gets]
  · intro i left right
    simp [gets]

/-- A file chunk stands at the start of its message. -/
theorem laid_fileChunk (source : Option CnCbor) (alloc : Nat → Bool) : Laid (gets source 0 fileChunk alloc) (gets source 0 fileChunk alloc) := by
  apply Layout.laid
  rw [gets_field]
  exact layout_fileChunk.shift 0

theorem laid_listGets (list : CnCbor) (value : Nat → Nat → Bool) {n : Nat} (short : n < 2 ^ 16) :
    Laid (listGets list value n) (listGets list value n) := by
  apply Layout.laid
  have fields : (listGets list value n).map (·.field) =
      (List.range n).flatMap fun t => fileDescExt.map (Field.shift (sizeofFileDescExt * t)) := by
    rw [listGets,List.map_flatMap]
    apply List.flatMap_congr
    intro t member
    rw [entryGets,gets_field,Nat.mod_eq_of_lt (Nat.lt_trans (List.mem_range.mp member) short)]
  rw [fields]
  exact layout_fileDescExt.entries (by decide) n

end Layout

end XivelyClient.Cbor
