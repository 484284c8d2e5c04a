import XivelyClient.Cbor.ControlMessage
import XivelyClient.Lib.BigEndian

/-! The bytes that cn-cbor takes for a tree: the major types, the forms of an argument, and the items in a row. -/
namespace XivelyClient.Cbor

/-- `cn_cbor` with `CN_CBOR_FL_INDEF`. `uint` is the union `v` read as a number, 0 where it points to a string. `CN_CBOR_FL_COUNT` is of
use while a tree is read alone. -/
inductive Item
  | node (type : CborType) (indef : Bool) (uint : UInt64) (str : List UInt8) (children : List Item)

namespace Item

def type : Item → CborType
  | .node type _ _ _ _ => type

def indef : Item → Bool
  | .node _ indef _ _ _ => indef

def children : Item → List Item
  | .node _ _ _ _ children => children

end Item

/-- The bits of the `double` that C makes of the bits of a half, and of a `float`, and the bytes that `_write_double` makes of it. -/
structure Floats where
  half : UInt64 → UInt64
  single : UInt64 → UInt64
  written : UInt64 → List UInt8

/-- `mt_trans` -/
def mtTrans : Nat → CborType
  | 0 => .uint
  | 1 => .int
  | 2 => .bytes
  | 3 => .text
  | 4 => .array
  | 5 => .map
  | 6 => .tag
  | _ => .simple

/-- What a type becomes at the break behind its chunks. -/
def chunkedType : CborType → CborType
  | .bytes => .bytesChunked
  | .text => .textChunked
  | type => type

/-- The item of major type 7. -/
def primitive (floats : Floats) (ai : Nat) (val : UInt64) : Item :=
  match ai with
  | 20 => .node .false false 0 [] []
  | 21 => .node .true false 0 [] []
  | 22 => .node .null false 0 [] []
  | 23 => .node .undef false 0 [] []
  | 25 => .node .double false (floats.half val) [] []
  | 26 => .node .double false (floats.single val) [] []
  | 27 => .node .double false val [] []
  | _ => .node .simple false val [] []

/-- The initial byte of a major type and its additional information, `ib`. -/
def initialByte (mt ai : Nat) : UInt8 := UInt8.ofNat (mt * 32 + ai)

/-- A number in the initial byte, or in one, two, four or eight bytes behind it. -/
inductive Argument : Nat → List UInt8 → UInt64 → Prop
  | short {ai : Nat} (small : ai < 24) : Argument ai [] (UInt64.ofNat ai)
  | long {i : Nat} {arg : List UInt8} (sizes : i < 4) (size : arg.length = 2 ^ i) : Argument (24 + i) arg (UInt64.ofNat (BigEndian.value arg))

/-- An item without items in it, and its bytes. -/
inductive Leaf (floats : Floats) : Item → List UInt8 → Prop
  | unsigned {ai : Nat} {arg : List UInt8} {val : UInt64} (argument : Argument ai arg val) :
      Leaf floats (.node .uint false val [] []) (initialByte 0 ai :: arg)
  | negative {ai : Nat} {arg : List UInt8} {val : UInt64} (argument : Argument ai arg val) :
      Leaf floats (.node .int false (~~~val) [] []) (initialByte 1 ai :: arg)
  | string {mt ai : Nat} {arg content : List UInt8} {val : UInt64} (strings : mt = 2 ∨ mt = 3) (argument : Argument ai arg val)
      (whole : content.length = val.toNat) : Leaf floats (.node (mtTrans mt) false 0 content []) (initialByte mt ai :: arg ++ content)
  | primitive {ai : Nat} {arg : List UInt8} {val : UInt64} (argument : Argument ai arg val) :
      Leaf floats (primitive floats ai val) (initialByte 7 ai :: arg)

/-- How many items an array, a map or a tag announces. -/
def announced (mt : Nat) (val : UInt64) : Nat := if mt = 6 then 1 else if mt = 5 then (val <<< 1).toNat else val.toNat

/-- What the items of an indefinite length have to be: pieces of a string, or keys with their values. -/
structure Fits (type : CborType) (children : List Item) : Prop where
  pieces : type = .bytes ∨ type = .text → ∀ child ∈ children, child.type = type
  pairs : type = .map → children.length % 2 = 0

/-- Items in a row, and their bytes. -/
inductive Sequence (floats : Floats) : List Item → List UInt8 → Prop
  | nil : Sequence floats [] []
  | leaf {item : Item} {items : List Item} {bytes more : List UInt8} (leaf : Leaf floats item bytes) (rest : Sequence floats items more) :
      Sequence floats (item :: items) (bytes ++ more)
  | counted {mt ai : Nat} {arg : List UInt8} {val : UInt64} {children items : List Item} {body more : List UInt8}
      (containers : mt = 4 ∨ mt = 5 ∨ mt = 6) (argument : Argument ai arg val) (inner : Sequence floats children body)
      (count : children.length = announced mt val) (rest : Sequence floats items more) :
      Sequence floats (.node (mtTrans mt) false (if mt = 6 then val else 0) [] children :: items) (initialByte mt ai :: arg ++ body ++ more)
  | indefinite {mt : Nat} {children items : List Item} {body more : List UInt8} (containers : 2 ≤ mt ∧ mt ≤ 6)
      (inner : Sequence floats children body) (fits : Fits (mtTrans mt) children) (rest : Sequence floats items more) :
      Sequence floats (.node (chunkedType (mtTrans mt)) true 0 [] children :: items) (initialByte mt 31 :: body ++ 0xff :: more)

end XivelyClient.Cbor
