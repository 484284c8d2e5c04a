import XivelyClient.Cbor.Grammar

/-! The decoder of cn-cbor (`cn-cbor.c`), whose loop over open items reads exactly the bytes of the grammar. Memory for the nodes is
there. -/
namespace XivelyClient.Cbor

/-- `cn_cbor_error`, as far as the decoder has it with memory and floats. -/
inductive CborError
  | outOfData | notAllDataConsumed | oddSizeIndefMap | breakOutsideIndef | mtUndefForIndef | reservedAi | wrongNestingInIndefString
  deriving DecidableEq, Repr

/-- A parent whose children are still being read. `count` is `v.count` where `CN_CBOR_FL_COUNT` is set. -/
structure Frame where
  type : CborType
  indef : Bool := false
  count : Option UInt64 := none
  uint : UInt64 := 0
  children : List Item := []

def Frame.add (frame : Frame) (child : Item) : Frame := {frame with children := frame.children ++ [child]}

def Frame.close (frame : Frame) : Item := .node frame.type frame.indef frame.uint [] frame.children

/-- What one turn of the loop comes to, behind so many bytes: on to the next byte, the top of the tree, or an error. -/
inductive Turn
  | again (used : Nat) (stack : List Frame)
  | done (used : Nat) (root : Item)
  | fail (err : CborError)

/-- `fill` and `complete`: an item is there, and with it those parents that wait for nothing more. -/
def fill (used : Nat) (cb : Item) : List Frame → Turn
  | [] => .done used cb
  | parent :: above =>
    if parent.indef then
      if (parent.type = .bytes ∨ parent.type = .text) ∧ cb.type ≠ parent.type then .fail .wrongNestingInIndefString
      else .again used (parent.add cb :: above)
    else
      match parent.count with
      | some count => if count - 1 ≠ 0 then .again used ({parent.add cb with count := some (count - 1)} :: above)
        else fill used (parent.add cb).close above
      | none => fill used (parent.add cb).close above

def breaks (used : Nat) : List Frame → Turn
  | [] => .fail .breakOutsideIndef
  | parent :: above =>
    if !parent.indef then .fail .breakOutsideIndef
    else if parent.type = .map ∧ parent.children.length % 2 = 1 then .fail .oddSizeIndefMap
    else fill used {parent with type := chunkedType parent.type}.close above

def argumentSize : Nat → Nat
  | 24 => 1
  | 25 => 2
  | 26 => 4
  | 27 => 8
  | _ => 0

def content (floats : Floats) (mt ai : Nat) (val : UInt64) (used : Nat) (rest : List UInt8) (stack : List Frame) : Turn :=
  match mt with
  | 0 => fill used (.node .uint false val [] []) stack
  | 1 => fill used (.node .int false (~~~val) [] []) stack
  | 2 | 3 =>
    if val.toNat > rest.length then .fail .outOfData
    else fill (used + val.toNat) (.node (mtTrans mt) false 0 (rest.take val.toNat) []) stack
  | 4 | 5 =>
    let val := if mt = 5 then val <<< 1 else val
    if val ≠ 0 then .again used ({type := mtTrans mt,count := some val} :: stack)
    else fill used (.node (mtTrans mt) false 0 [] []) stack
  | 6 => .again used ({type := mtTrans mt,uint := val} :: stack)
  | _ => fill used (primitive floats ai val) stack

/-- One turn from the initial byte on. -/
def turn (floats : Floats) (ib : UInt8) (rest : List UInt8) (stack : List Frame) : Turn :=
  if ib = 0xff then breaks 0 stack
  else
    let mt := ib.toNat / 32
    let ai := ib.toNat % 32
    if ai = 28 ∨ ai = 29 ∨ ai = 30 then .fail .reservedAi
    else if ai = 31 then
      -- `(mt - MT_BYTES) <= MT_MAP` holds of a tag too
      if 2 ≤ mt ∧ mt - 2 ≤ 5 then .again 0 ({type := mtTrans mt,indef := true} :: stack) else .fail .mtUndefForIndef
    else if argumentSize ai > rest.length then .fail .outOfData
    else
      let val := if ai < 24 then UInt64.ofNat ai else UInt64.ofNat (BigEndian.value (rest.take (argumentSize ai)))
      content floats mt ai val (argumentSize ai) (rest.drop (argumentSize ai)) stack

def decodeItem (floats : Floats) : List UInt8 → List Frame → Except CborError Item
  | [],_ => .error .outOfData
  | ib :: rest,stack =>
    match turn floats ib rest stack with
    | .again used stack => decodeItem floats (rest.drop used) stack
    | .done used root => if rest.drop used = [] then .ok root else .error .notAllDataConsumed
    | .fail err => .error err
termination_by bytes => bytes.length
decreasing_by
  rw [List.length_drop,List.length_cons]
  omega

def cnCborDecode (floats : Floats) (buf : List UInt8) : Except CborError Item := decodeItem floats buf []

end XivelyClient.Cbor
