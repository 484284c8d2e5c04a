import XivelyClient.Lib.Cells
import XivelyClient.State

/-! The decoder of control messages (`xi_cbor_codec_ct.c`) over a decoded CBOR tree, for 64-bit little-endian targets. The fields that
are written through a `void` pointer live in a memory of bytes, at the offsets of `xi_control_message.h`. -/
namespace XivelyClient.Cbor

open Cells

/-- `cn_cbor_type` -/
inductive CborType
  | false | true | null | undef | uint | int | bytes | text | bytesChunked | textChunked | array | map | tag | simple | double | invalid
  deriving DecidableEq, Repr

/-- `cn_cbor`. `uint` is what the union `v` holds, read as a number, `str` what it points to in a string. -/
inductive CnCbor
  | node (type : CborType) (uint : UInt64) (str : List UInt8) (children : List CnCbor)

/-- A count in an `int`. -/
def intOf (n : Nat) : Int := ((n : Int) + 2 ^ 31) % 2 ^ 32 - 2 ^ 31

namespace CnCbor

def type : CnCbor → CborType
  | .node type _ _ _ => type

def uint : CnCbor → Nat
  | .node _ uint _ _ => uint.toNat

def str : CnCbor → List UInt8
  | .node _ _ str _ => str

def children : CnCbor → List CnCbor
  | .node _ _ _ children => children

/-- The number of bytes of a string, or of children. -/
def length (cb : CnCbor) : Int :=
  if cb.type = .bytes ∨ cb.type = .text then cb.str.length else intOf cb.children.length

/-- The value after the first string that is the key, among keys and values in turn. -/
def valueOf (key : List UInt8) : List CnCbor → Option CnCbor
  | cp :: value :: rest => if (cp.type = .text ∨ cp.type = .bytes) ∧ cp.str = key then some value else valueOf key rest
  | _ => none

def mapgetString (cb : CnCbor) (key : List UInt8) : Option CnCbor := valueOf key cb.children

def index (cb : CnCbor) (idx : Nat) : Option CnCbor := cb.children[idx]?

end CnCbor

def keyOf (text : List Char) : List UInt8 := text.map fun c => UInt8.ofNat c.toNat

def msgtypeKey : List UInt8 := keyOf ['m','s','g','t','y','p','e']

def msgverKey : List UInt8 := keyOf ['m','s','g','v','e','r']

def listKey : List UInt8 := keyOf ['l','i','s','t']

/-- The bytes of the fields, and the blocks that have been allocated for them. -/
structure Fields where
  memory : Memory := blank
  heap : List (List UInt8) := []

/-- `XI_ALLOC_BUFFER_AT` and the copy into the buffer. -/
def allocateAt (fields : Fields) (out : Nat) (bytes : List UInt8) (alloc : Bool) : XiState × Fields :=
  if alloc then (.ok,⟨write fields.memory out (pointer (some fields.heap.length)),fields.heap ++ [bytes]⟩)
  else (.outOfMemory,⟨write fields.memory out (pointer none),fields.heap⟩)

/-- What is written depends on the type of the value alone. -/
def decodeGetvalue (source : Option CnCbor) (key : List UInt8) (outDestination : Nat) (outLen : Option Nat) (alloc : Bool) (fields : Fields) :
    XiState × Fields :=
  match source with
  | none => (.invalidParameter,fields)
  | some source =>
    match source.mapgetString key with
    | none => (.elementNotFound,fields)
    | some value =>
      match value.type with
      | .false => (.ok,{fields with memory := write fields.memory outDestination (number 4 0)})
      | .true => (.ok,{fields with memory := write fields.memory outDestination (number 4 1)})
      | .null | .undef | .uint | .int | .tag | .simple | .double =>
        (.ok,{fields with memory := write fields.memory outDestination (number 4 value.uint)})
      | .bytes =>
        if value.str.length = 0 then (.ok,fields)
        else
          match allocateAt fields outDestination value.str alloc,outLen with
          | (.ok,copied),some len => (.ok,{copied with memory := write copied.memory len (number 2 value.str.length)})
          | (state,copied),_ => (state,copied)
      | .text => allocateAt fields outDestination (value.str ++ [0]) alloc
      | .bytesChunked | .textChunked | .array | .map | .invalid => (.notImplemented,fields)

/-- The type of a field. Beside bytes stands their length, of so many bytes. -/
inductive Kind
  | string
  | bytes (lengthOffset lengthSize : Nat)
  | number (size : Nat)
  | flag
  deriving DecidableEq, Repr

structure Field where
  key : List UInt8
  kind : Kind
  offset : Nat
  deriving DecidableEq, Repr

/-- The length is written as a `uint16_t`, whatever it is. -/
def Field.outLen (field : Field) : Option Nat :=
  match field.kind with
  | .bytes lengthOffset _ => some lengthOffset
  | _ => none

/-- `xi_control_message_file_desc_ext_t`, in the order of decoding -/
def fileDescExt : List Field :=
  [⟨keyOf ['N'],.string,0⟩,⟨keyOf ['R'],.string,8⟩,⟨keyOf ['O'],.number 1,16⟩,⟨keyOf ['S'],.number 4,20⟩,⟨keyOf ['F'],.bytes 32 2,24⟩,
    ⟨keyOf ['L'],.string,40⟩,⟨keyOf ['M'],.flag,48⟩]

def sizeofFileDescExt : Nat := 56

/-- `file_chunk_s`, in the order of decoding -/
def fileChunk : List Field :=
  [⟨keyOf ['N'],.string,8⟩,⟨keyOf ['R'],.string,16⟩,⟨keyOf ['O'],.number 4,24⟩,⟨keyOf ['S'],.number 1,32⟩,⟨keyOf ['C'],.bytes 28 4,40⟩]

/-- One call of the getter: where from, for which field, and whether there is memory. -/
structure Get where
  source : Option CnCbor
  field : Field
  alloc : Bool

def Get.run (get : Get) (fields : Fields) : Fields :=
  (decodeGetvalue get.source get.field.key get.field.offset get.field.outLen get.alloc fields).2

def runAll (gets : List Get) (fields : Fields) : Fields := gets.foldl (fun fields get => get.run fields) fields

def Field.shift (base : Nat) (field : Field) : Field :=
  ⟨field.key,match field.kind with
    | .bytes lengthOffset lengthSize => .bytes (base + lengthOffset) lengthSize
    | kind => kind,base + field.offset⟩

def gets (source : Option CnCbor) (base : Nat) (fields : List Field) (alloc : Nat → Bool) : List Get :=
  fields.mapIdx fun position field => ⟨source,field.shift base,alloc position⟩

/-- Whether memory is there for the message, the list and, in each turn, for each value. -/
structure Allocations where
  message : Bool
  list : Bool
  value : Nat → Nat → Bool

/-- The calls for one entry. The counter of the turns is a `uint16_t`. -/
def entryGets (list : CnCbor) (value : Nat → Nat → Bool) (turn : Nat) : List Get :=
  gets (list.index (turn % 2 ^ 16)) (sizeofFileDescExt * (turn % 2 ^ 16)) fileDescExt (value turn)

/-- The loop over the list. Without an end in `fuel` turns there is no result. -/
def decodeList (list : CnCbor) (value : Nat → Nat → Bool) : Nat → Nat → Fields → Option Fields
  | 0,_,_ => none
  | fuel + 1,turn,fields =>
    if ((turn % 2 ^ 16 : Nat) : Int) < list.length then decodeList list value fuel (turn + 1) (runAll (entryGets list value turn) fields)
    else some fields

/-- The part of the message that its type says. -/
inductive Payload
  | fileUpdateAvailable (listLen entries : Nat) (list : Fields)
  | fileChunk (chunk : Fields)
  | other

structure ControlMessage where
  msgtype : Nat
  msgver : Nat
  payload : Payload

/-- The list is not touched where its length is not positive. -/
def decodeFileUpdateAvailable (fuel : Nat) (cbMap : CnCbor) (allocs : Allocations) : Option (Option Payload) :=
  match cbMap.mapgetString listKey with
  | none => some (some (.fileUpdateAvailable 0 0 {}))
  | some list =>
    let listLen := (list.length % 2 ^ 16).toNat
    if 0 < list.length then
      if allocs.list then
        (decodeList list allocs.value fuel 0 {}).map fun fields => some (.fileUpdateAvailable listLen list.length.toNat fields)
      else some none
    else some (some (.fileUpdateAvailable listLen 0 {}))

def decodePayload (fuel : Nat) (cbMap : CnCbor) (msgtype : Nat) (allocs : Allocations) : Option (Option Payload) :=
  match msgtype with
  | 1 => decodeFileUpdateAvailable fuel cbMap allocs
  | 3 => some (some (.fileChunk (runAll (gets (some cbMap) 0 fileChunk (allocs.value 0)) {})))
  | _ => some (some .other)

/-- A message that is rejected is `some none`. -/
def decode (fuel : Nat) (cbMap : Option CnCbor) (allocs : Allocations) : Option (Option ControlMessage) :=
  match cbMap with
  | none => some none
  | some cbMap =>
    if allocs.message then
      match cbMap.mapgetString msgtypeKey,cbMap.mapgetString msgverKey with
      | some msgtype,some msgver =>
        (decodePayload fuel cbMap (msgtype.uint % 2 ^ 32) allocs).map fun payload => payload.map fun payload =>
          ⟨msgtype.uint % 2 ^ 32,msgver.uint % 2 ^ 32,payload⟩
      | _,_ => some none
    else some none

/-- The entries that `xi_control_message_free` visits, from one on. -/
def freeEntries (listLen idFile : Nat) : List Nat :=
  if idFile < listLen then idFile :: freeEntries listLen (idFile + 1) else []
termination_by listLen - idFile

def free (message : ControlMessage) : List Nat :=
  match message.payload with
  | .fileUpdateAvailable listLen _ _ => freeEntries listLen 0
  | _ => []

theorem freeEntries_eq (listLen idFile : Nat) : freeEntries listLen idFile = List.range' idFile (listLen - idFile) := by
  induction remaining : listLen - idFile generalizing idFile with
  | zero =>
    rw [freeEntries,if_neg (by omega)]
    rfl
  | succ n ih =>
    rw [freeEntries,if_pos (by omega),ih (idFile + 1) (by omega)]
    rfl

section Loop

variable {list : CnCbor} {value : Nat → Nat → Bool}

/-- The entries of all turns up to one. -/
def listGets (list : CnCbor) (value : Nat → Nat → Bool) (turns : Nat) : List Get := (List.range turns).flatMap (entryGets list value)

theorem listGets_succ (turns : Nat) : listGets list value (turns + 1) = listGets list value turns ++ entryGets list value turns := by
  rw [listGets,List.range_succ,List.flatMap_append,List.flatMap_singleton,listGets]

theorem runAll_append (first second : List Get) (fields : Fields) : runAll (first ++ second) fields = runAll second (runAll first fields) :=
  List.foldl_append

/-- A list shorter than the range of the counter is done in as many turns as it has entries. -/
theorem decodeList_short {n : Nat} (length : list.length = n) (short : n < 2 ^ 16) :
    decodeList list value (n + 1) 0 {} = some (runAll (listGets list value n) {}) := by
  have steps : ∀ left turn, turn + left = n →
      decodeList list value (left + 1) turn (runAll (listGets list value turn) {}) = some (runAll (listGets list value n) {}) := by
    intro left
    induction left with
    | zero =>
      intro turn rfl_
      obtain rfl : turn = n := rfl_
      rw [decodeList,if_neg (by rw [length]; omega)]
    | succ left ih =>
      intro turn sum
      rw [decodeList,if_pos (by rw [length]; omega),← runAll_append,← listGets_succ]
      exact ih (turn + 1) (by omega)
  exact steps n 0 (by omega)

/-- The counter never reaches the length of a longer one. -/
theorem decodeList_long (long : 2 ^ 16 ≤ list.length) (fuel turn : Nat) (fields : Fields) :
    decodeList list value fuel turn fields = none := by
  induction fuel generalizing turn fields with
  | zero => rfl
  | succ fuel ih =>
    have below : ((turn % 2 ^ 16 : Nat) : Int) < list.length := by omega
    rw [decodeList,if_pos below,ih]

end Loop

end XivelyClient.Cbor
