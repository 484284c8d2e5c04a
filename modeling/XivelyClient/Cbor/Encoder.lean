import XivelyClient.Cbor.Grammar
import XivelyClient.Lib.WriteCursor

/-! The encoder of cn-cbor (`cn-encoder.c`). It walks through a tree along its links, without a stack, and writes what a recursion over the
tree would write. -/
namespace XivelyClient.Cbor

open WriteCursor

/-- `cn_write_state` -/
abbrev WriteState := Cursor UInt8

/-- `_xlate` -/
def xlate : CborType → UInt8
  | .false => 0xf4
  | .true => 0xf5
  | .null => 0xf6
  | .undef => 0xf7
  | .uint => 0x00
  | .int => 0x20
  | .bytes | .bytesChunked => 0x40
  | .text | .textChunked => 0x60
  | .array => 0x80
  | .map => 0xa0
  | .tag => 0xc0
  | .simple => 0xe0
  | .double | .invalid => 0xff

/-- `_write_positive` -/
def writePositive (ws : WriteState) (typ : CborType) (val : UInt64) : WriteState :=
  let ib := xlate typ
  if ib = 0xff then ws.lose
  else if val.toNat < 24 then ws.put [ib ||| UInt8.ofNat val.toNat]
  else if val.toNat < 256 then ws.put [ib ||| 24,UInt8.ofNat val.toNat]
  else if val.toNat < 65536 then ws.put ((ib ||| 25) :: BigEndian.bytes 2 val.toNat)
  else if val.toNat < 0x100000000 then ws.put ((ib ||| 26) :: BigEndian.bytes 4 val.toNat)
  else ws.put ((ib ||| 27) :: BigEndian.bytes 8 val.toNat)

/-- An `int` where a `uint64_t` is taken. -/
def widen (n : Int) : UInt64 := UInt64.ofNat (n % 2 ^ 64).toNat

/-- `cb->length` -/
def Item.length : Item → Int
  | .node type _ _ str children => intOf (if type = .bytes ∨ type = .text then str.length else children.length)

/-- `_encoder_visitor`, in a build with assertions or without. There is no result where it asserts that a number is negative. -/
def encoderVisitor (asserts : Bool) (floats : Floats) (ws : WriteState) (cb : Item) : Option WriteState :=
  match cb with
  | .node type indef uint str _ =>
    match type with
    | .array => some (if indef then ws.put [0x9f] else writePositive ws .array (widen cb.length))
    | .map => some (if indef then ws.put [0xbf] else writePositive ws .map (widen (cb.length / 2)))
    | .bytesChunked | .textChunked => some (ws.put [xlate type ||| 31])
    | .text | .bytes => some ((writePositive ws type (widen cb.length)).put (str.take cb.length.toNat))
    | .false | .true | .null | .undef => some (ws.put [xlate type])
    | .tag | .uint | .simple => some (writePositive ws type uint)
    | .int => if asserts ∧ uint.toNat < 2 ^ 63 then none else some (writePositive ws .int (~~~uint))
    | .double => some (ws.put (floats.written uint))
    | .invalid => some ws.lose

/-- `_encoder_breaker` -/
def encoderBreaker (ws : WriteState) : WriteState := ws.put [0xff]

/-- A parent on the way up: its flag, and what comes after it. -/
structure Parent where
  indef : Bool
  next : List Item

mutual

/-- `_visit`, from a node on: what comes after the node, and its parents. -/
def visit (asserts : Bool) (floats : Floats) (ws : WriteState) (p : Item) (next : List Item) (parents : List Parent) : Option WriteState :=
  match p with
  | .node type indef uint str children =>
    match encoderVisitor asserts floats ws (.node type indef uint str children) with
    | none => none
    | some ws =>
      match children with
      | child :: siblings => visit asserts floats ws child siblings (⟨indef,next⟩ :: parents)
      | [] =>
        -- the break of an empty item without an end
        let ws := if indef then encoderBreaker ws else ws
        match next with
        | q :: next => visit asserts floats ws q next parents
        | [] => climb asserts floats ws parents
termination_by sizeOf p + sizeOf next + sizeOf parents
decreasing_by
  all_goals simp
  all_goals omega

/-- The inner loop, up to a parent that something comes after. -/
def climb (asserts : Bool) (floats : Floats) (ws : WriteState) (parents : List Parent) : Option WriteState :=
  match parents with
  | [] => some ws
  | ⟨indef,next⟩ :: parents =>
    let ws := if indef then encoderBreaker ws else ws
    match next with
    | q :: next => visit asserts floats ws q next parents
    | [] => climb asserts floats ws parents
termination_by sizeOf parents
decreasing_by
  all_goals simp
  all_goals omega

end

/-- `cn_cbor_encoder_write`: the buffer behind it, and the number of bytes or -1. -/
def cnCborEncoderWrite (asserts : Bool) (floats : Floats) (buf : List UInt8) (bufOffset bufSize : Nat) (room : bufSize ≤ buf.length)
    (cb : Item) : Option (List UInt8 × Int) :=
  match visit asserts floats ⟨buf,some bufOffset,bufSize,room⟩ cb [] [] with
  | none => none
  | some ws =>
    match ws.offset with
    | none => some (ws.cells,-1)
    | some offset => some (ws.cells,offset - bufOffset)

section Emit

/-- The additional information of a number in its shortest form, and the bytes behind it. -/
def shortest (val : UInt64) : Nat × List UInt8 :=
  if val.toNat < 24 then (val.toNat,[])
  else if val.toNat < 256 then (24,BigEndian.bytes 1 val.toNat)
  else if val.toNat < 65536 then (25,BigEndian.bytes 2 val.toNat)
  else if val.toNat < 0x100000000 then (26,BigEndian.bytes 4 val.toNat)
  else (27,BigEndian.bytes 8 val.toNat)

/-- The head of an item with a number. -/
def positive (mt : Nat) (val : UInt64) : List UInt8 := initialByte mt (shortest val).1 :: (shortest val).2

/-- The bytes of a node before those of its children. -/
def head (floats : Floats) (type : CborType) (indef : Bool) (uint : UInt64) (str : List UInt8) (count : Nat) : List UInt8 :=
  match type with
  | .false => [initialByte 7 20]
  | .true => [initialByte 7 21]
  | .null => [initialByte 7 22]
  | .undef => [initialByte 7 23]
  | .uint => positive 0 uint
  | .int => positive 1 (~~~uint)
  | .bytes => positive 2 (UInt64.ofNat str.length) ++ str
  | .text => positive 3 (UInt64.ofNat str.length) ++ str
  | .bytesChunked => [initialByte 2 31]
  | .textChunked => [initialByte 3 31]
  | .array => if indef then [initialByte 4 31] else positive 4 (UInt64.ofNat count)
  | .map => if indef then [initialByte 5 31] else positive 5 (UInt64.ofNat (count / 2))
  | .tag => positive 6 uint
  | .simple => positive 7 uint
  | .double => floats.written uint
  | .invalid => []

mutual

/-- The bytes of an item. -/
def emit (floats : Floats) : Item → List UInt8
  | .node type indef uint str children =>
    head floats type indef uint str children.length ++ emitAll floats children ++ if indef then [0xff] else []

def emitAll (floats : Floats) : List Item → List UInt8
  | [] => []
  | item :: items => emit floats item ++ emitAll floats items

end

/-- The number of a node is negative where that is asserted. -/
def Signed (asserts : Bool) (type : CborType) (uint : UInt64) : Prop := asserts = true → type = .int → 2 ^ 63 ≤ uint.toNat

/-- A tree whose lengths are in the range of an `int`, as they are where a string or the memory of the children is below 2 GiB. -/
inductive Short (asserts : Bool) : Item → Prop
  | node {type : CborType} {indef : Bool} {uint : UInt64} {str : List UInt8} {children : List Item} (valid : type ≠ .invalid)
      (string : str.length < 2 ^ 31) (count : children.length < 2 ^ 31) (sign : Signed asserts type uint)
      (inner : ∀ child ∈ children, Short asserts child) : Short asserts (.node type indef uint str children)

/-- What is written behind a node. -/
def ascend (floats : Floats) : List Parent → List UInt8
  | [] => []
  | ⟨indef,next⟩ :: parents => (if indef then [0xff] else []) ++ emitAll floats next ++ ascend floats parents

end Emit

section Walk

variable {asserts : Bool} {floats : Floats} {ws : WriteState}

theorem or_eq_initialByte {mt ai : Nat} (types : mt < 8) (inside : ai < 32) :
    UInt8.ofNat (mt * 32) ||| UInt8.ofNat ai = initialByte mt ai := by
  have all : ∀ mt < 8, ∀ ai < 32, UInt8.ofNat (mt * 32) ||| UInt8.ofNat ai = initialByte mt ai := by decide
  exact all mt types ai inside

/-- The head of an item whose initial byte begins the major type. -/
theorem writePositive_wrote (typ : CborType) (mt : Nat) (types : mt < 8) (byte : xlate typ = UInt8.ofNat (mt * 32)) (val : UInt64) :
    Cursor.Wrote ws (writePositive ws typ val) (positive mt val) := by
  have all : ∀ mt < 8, ¬UInt8.ofNat (mt * 32) = 0xff := by decide
  have eq : writePositive ws typ val = ws.put (positive mt val) := by
    simp only [writePositive,byte,if_neg (all mt types),positive,shortest]
    split
    · next small => rw [or_eq_initialByte types (by omega)]
    · split
      · rw [← or_eq_initialByte types (show 24 < 32 by decide)]
        simp [BigEndian.bytes]
      · split
        · rw [← or_eq_initialByte types (show 25 < 32 by decide)]
          rfl
        · split
          · rw [← or_eq_initialByte types (show 26 < 32 by decide)]
            rfl
          · rw [← or_eq_initialByte types (show 27 < 32 by decide)]
            rfl
  rw [eq]
  exact Cursor.put_wrote _ _

theorem intOf_short {n : Nat} (short : n < 2 ^ 31) : intOf n = n := by
  unfold intOf
  omega

theorem widen_short {n : Nat} (short : n < 2 ^ 31) : widen n = UInt64.ofNat n := by
  rw [widen]
  congr 1
  omega

theorem visitor_wrote {type : CborType} {indef : Bool} {uint : UInt64} {str : List UInt8} {children : List Item}
    (short : Short asserts (.node type indef uint str children)) :
    ∃ visited, encoderVisitor asserts floats ws (.node type indef uint str children) = some visited ∧
      Cursor.Wrote ws visited (head floats type indef uint str children.length) := by
  cases short with
  | node valid string count sign inner =>
    cases type with
    | invalid => exact (valid rfl).elim
    | bytes =>
      have length : (Item.node .bytes indef uint str children).length = str.length := intOf_short string
      refine ⟨_,rfl,?_⟩
      simp only [length,widen_short string,Int.toNat_natCast,List.take_length]
      exact (writePositive_wrote .bytes 2 (by decide) rfl _).append (Cursor.put_wrote _ _)
    | text =>
      have length : (Item.node .text indef uint str children).length = str.length := intOf_short string
      refine ⟨_,rfl,?_⟩
      simp only [length,widen_short string,Int.toNat_natCast,List.take_length]
      exact (writePositive_wrote .text 3 (by decide) rfl _).append (Cursor.put_wrote _ _)
    | array =>
      have length : (Item.node .array indef uint str children).length = children.length := intOf_short count
      refine ⟨_,rfl,?_⟩
      simp only [length,head]
      cases indef with
      | true => exact Cursor.put_wrote _ _
      | false =>
        rw [widen_short count]
        exact writePositive_wrote .array 4 (by decide) rfl _
    | map =>
      have length : (Item.node .map indef uint str children).length = children.length := intOf_short count
      refine ⟨_,rfl,?_⟩
      simp only [length,head]
      cases indef with
      | true => exact Cursor.put_wrote _ _
      | false =>
        have half : ((children.length : Int) / 2) = (children.length / 2 : Nat) := rfl
        rw [half,widen_short (by omega)]
        exact writePositive_wrote .map 5 (by decide) rfl _
    | int =>
      have negative : ¬(asserts = true ∧ uint.toNat < 2 ^ 63) := fun ⟨asserted,positive⟩ => absurd (sign asserted rfl) (Nat.not_le.mpr positive)
      exact ⟨_,if_neg negative,writePositive_wrote .int 1 (by decide) rfl _⟩
    | uint => exact ⟨_,rfl,writePositive_wrote .uint 0 (by decide) rfl _⟩
    | tag => exact ⟨_,rfl,writePositive_wrote .tag 6 (by decide) rfl _⟩
    | simple => exact ⟨_,rfl,writePositive_wrote .simple 7 (by decide) rfl _⟩
    | _ => exact ⟨_,rfl,Cursor.put_wrote _ _⟩

theorem break_wrote (indef : Bool) (inside : ∀ offset, ws.offset = some offset → offset < ws.limit) :
    Cursor.Wrote ws (if indef then encoderBreaker ws else ws) (if indef then [0xff] else []) := by
  cases indef with
  | true => exact Cursor.put_wrote _ _
  | false => exact Cursor.Wrote.stay inside

/-- The walk from a node on, and the way up. -/
structure Walks (asserts : Bool) (floats : Floats) (size : Nat) : Prop where
  visit : ∀ ws p next parents, sizeOf p + sizeOf next + sizeOf parents ≤ size → Short asserts p → (∀ q ∈ next, Short asserts q) →
    (∀ parent ∈ parents, ∀ q ∈ parent.next, Short asserts q) →
      ∃ ws', visit asserts floats ws p next parents = some ws' ∧
        Cursor.Wrote ws ws' (emit floats p ++ (emitAll floats next ++ ascend floats parents))
  climb : ∀ ws parents, sizeOf parents ≤ size → (∀ parent ∈ parents, ∀ q ∈ parent.next, Short asserts q) →
    (∀ offset, ws.offset = some offset → offset < ws.limit) →
      ∃ ws', climb asserts floats ws parents = some ws' ∧ Cursor.Wrote ws ws' (ascend floats parents)

/-- On to the next sibling, or up where there is none. -/
def onward (asserts : Bool) (floats : Floats) (ws : WriteState) (next : List Item) (parents : List Parent) : Option WriteState :=
  match next with
  | q :: next => visit asserts floats ws q next parents
  | [] => climb asserts floats ws parents

theorem Walks.onward {size : Nat} (walks : Walks asserts floats size) {between : WriteState} {written : List UInt8} (next : List Item)
    (parents : List Parent) (smaller : sizeOf next + sizeOf parents ≤ size + 1) (after : ∀ q ∈ next, Short asserts q)
    (above : ∀ parent ∈ parents, ∀ q ∈ parent.next, Short asserts q) (closed : Cursor.Wrote ws between written) :
    ∃ ws', onward asserts floats between next parents = some ws' ∧
      Cursor.Wrote ws ws' (written ++ emitAll floats next ++ ascend floats parents) := by
  rw [List.append_assoc]
  cases next with
  | nil =>
    obtain ⟨ws',climbed,wrote⟩ := walks.climb between parents (by simp at smaller; omega) above fun _ => closed.inside
    rw [emitAll,List.nil_append]
    exact ⟨ws',climbed,closed.append wrote⟩
  | cons q next =>
    have others : ∀ other ∈ next, Short asserts other := fun other member => after other (List.mem_cons_of_mem _ member)
    obtain ⟨ws',visited,wrote⟩ := walks.visit between q next parents (by simp at smaller; omega) (after q List.mem_cons_self) others above
    rw [emitAll,List.append_assoc]
    exact ⟨ws',visited,closed.append wrote⟩

theorem walks (size : Nat) : Walks asserts floats size := by
  induction size with
  | zero =>
    constructor
    · intro ws p next parents small
      cases p
      simp at small
    · intro ws parents small
      cases parents <;> simp at small
  | succ size ih =>
    constructor
    · intro ws p next parents small node after above
      obtain ⟨type,indef,uint,str,children⟩ := p
      obtain ⟨between,visited,wrote⟩ := @visitor_wrote asserts floats ws _ _ _ _ _ node
      obtain ⟨_,_,_,_,inner⟩ := node
      rw [visit.eq_def,emit]
      simp only [visited]
      simp only [Item.node.sizeOf_spec] at small
      cases children with
      | cons child siblings =>
        obtain ⟨ws',below,wrote'⟩ := ih.visit between child siblings (⟨indef,next⟩ :: parents) (by simp at small ⊢; omega)
          (inner child List.mem_cons_self) (fun q member => inner q (List.mem_cons_of_mem _ member)) (List.forall_mem_cons.mpr ⟨after,above⟩)
        have whole := wrote.append wrote'
        exact ⟨ws',below,by simpa only [ascend,emitAll,List.append_assoc] using whole⟩
      | nil =>
        have closed := wrote.append (break_wrote indef fun _ => wrote.inside)
        obtain ⟨ws',left,whole⟩ := ih.onward next parents (by omega) after above closed
        rw [emitAll,List.append_nil,← List.append_assoc]
        exact ⟨ws',left,whole⟩
    · intro ws parents small above inside
      rw [climb.eq_def]
      cases parents with
      | nil => exact ⟨ws,rfl,Cursor.Wrote.stay inside⟩
      | cons parent parents =>
        obtain ⟨indef,next⟩ := parent
        obtain ⟨after,above⟩ := List.forall_mem_cons.mp above
        rw [ascend]
        exact ih.onward next parents (by simp at small; omega) after above (break_wrote indef inside)

/-- What a build with assertions writes is what one without them writes. -/
theorem visitor_asserted {cb : Item} {visited : WriteState} (written : encoderVisitor asserts floats ws cb = some visited) :
    encoderVisitor false floats ws cb = some visited := by
  obtain ⟨type,indef,uint,str,children⟩ := cb
  cases type with
  | int =>
    simp only [encoderVisitor] at written
    split at written
    · cases written
    · exact written
  | _ => exact written

theorem asserted (size : Nat) : (∀ ws p next parents ws', sizeOf p + sizeOf next + sizeOf parents ≤ size →
      visit asserts floats ws p next parents = some ws' → visit false floats ws p next parents = some ws') ∧
    ∀ ws parents ws', sizeOf parents ≤ size → climb asserts floats ws parents = some ws' → climb false floats ws parents = some ws' := by
  induction size with
  | zero =>
    constructor
    · intro ws p next parents ws' small
      cases p
      simp at small
    · intro ws parents ws' small
      cases parents <;> simp at small
  | succ size ih =>
    have onwards : ∀ ws next parents ws', sizeOf next + sizeOf parents ≤ size + 1 →
        onward asserts floats ws next parents = some ws' → onward false floats ws next parents = some ws' := by
      intro ws next parents ws' smaller walked
      cases next with
      | nil => exact ih.2 ws parents ws' (by simp at smaller; omega) walked
      | cons q next => exact ih.1 ws q next parents ws' (by simp at smaller; omega) walked
    constructor
    · intro ws p next parents ws' small walked
      obtain ⟨type,indef,uint,str,children⟩ := p
      rw [visit.eq_def] at walked ⊢
      simp only [Item.node.sizeOf_spec] at small
      cases visited : encoderVisitor asserts floats ws (.node type indef uint str children) with
      | none => simp only [visited,reduceCtorEq] at walked
      | some between =>
        simp only [visited,visitor_asserted visited] at walked ⊢
        cases children with
        | cons child siblings => exact ih.1 between child siblings _ ws' (by simp at small ⊢; omega) walked
        | nil => exact onwards _ next parents ws' (by omega) walked
    · intro ws parents ws' small walked
      rw [climb.eq_def] at walked ⊢
      cases parents with
      | nil => exact walked
      | cons parent parents => exact onwards _ parent.next parents ws' (by cases parent; simp at small ⊢; omega) walked

end Walk

section Write

variable {asserts : Bool} (floats : Floats) (buf : List UInt8) {bufOffset bufSize : Nat} (room : bufSize ≤ buf.length) {cb : Item}

theorem cnCborEncoderWrite_asserted {written : List UInt8 × Int} (wrote : cnCborEncoderWrite asserts floats buf bufOffset bufSize room cb = some written) :
    cnCborEncoderWrite false floats buf bufOffset bufSize room cb = some written := by
  simp only [cnCborEncoderWrite] at wrote ⊢
  cases walked : visit asserts floats ⟨buf,some bufOffset,bufSize,room⟩ cb [] [] with
  | none => simp only [walked,reduceCtorEq] at wrote
  | some ws =>
    rw [walked] at wrote
    rw [(@asserted asserts floats _).1 _ cb [] [] ws le_rfl walked]
    exact wrote

theorem cnCborEncoderWrite_fits (short : Short asserts cb) (fits : bufOffset + (emit floats cb).length < bufSize) :
    cnCborEncoderWrite asserts floats buf bufOffset bufSize room cb =
      some (overwrite buf bufOffset (emit floats cb),((emit floats cb).length : Int)) := by
  obtain ⟨ws,walked,wrote⟩ := (@walks asserts floats _).visit ⟨buf,some bufOffset,bufSize,room⟩ cb [] [] le_rfl short (by simp) (by simp)
  simp only [emitAll,ascend,List.append_nil] at wrote
  obtain ⟨moved,cells⟩ := wrote.stored bufOffset rfl fits
  simp only [cnCborEncoderWrite,walked,moved,cells]
  simp

theorem cnCborEncoderWrite_over (short : Short asserts cb) (beyond : ¬bufOffset + (emit floats cb).length < bufSize) :
    ∃ after, cnCborEncoderWrite asserts floats buf bufOffset bufSize room cb = some (after,-1) := by
  obtain ⟨ws,walked,wrote⟩ := (@walks asserts floats _).visit ⟨buf,some bufOffset,bufSize,room⟩ cb [] [] le_rfl short (by simp) (by simp)
  simp only [emitAll,ascend,List.append_nil] at wrote
  have none' := wrote.full bufOffset rfl (by simpa using beyond)
  exact ⟨ws.cells,by simp only [cnCborEncoderWrite,walked,none']⟩

end Write

/-- What the walk leaves in the buffer, and when there is too little of it. -/
theorem cnCborEncoderWrite_eq (asserts : Bool) (floats : Floats) (buf : List UInt8) (bufOffset bufSize : Nat) (room : bufSize ≤ buf.length)
    (cb : Item) (short : Short asserts cb) :
    if bufOffset + (emit floats cb).length < bufSize then
      cnCborEncoderWrite asserts floats buf bufOffset bufSize room cb =
        some (overwrite buf bufOffset (emit floats cb),((emit floats cb).length : Int))
    else ∃ after, cnCborEncoderWrite asserts floats buf bufOffset bufSize room cb = some (after,-1) := by
  split
  · next fits => exact cnCborEncoderWrite_fits floats buf room short fits
  · next beyond => exact cnCborEncoderWrite_over floats buf room short beyond

/-- A map of a text to an array without an end, in which are an empty array, a negative number and a tagged text, and of a number to a
constant. -/
def nestedTree : Item :=
  .node .map false 0 [] [.node .text false 0 [0x61] [],
    .node .array true 0 [] [.node .array false 0 [] [],.node .int false (~~~300) [] [],.node .tag false 1 [] [.node .text false 0 [0x62,0x63] []]],
    .node .uint false 5 [] [],.node .null false 0 [] []]

theorem short_nestedTree (asserts : Bool) : Short asserts nestedTree := by
  have leaf {type : CborType} {uint : UInt64} {str : List UInt8} (valid : type ≠ .invalid) (string : str.length < 2 ^ 31)
      (sign : Signed asserts type uint) : Short asserts (.node type false uint str []) := .node valid string (by simp) sign (by simp)
  have other {type : CborType} {uint : UInt64} (other : type ≠ .int) : Signed asserts type uint := fun _ int => absurd int other
  have tagged : Short asserts (.node .tag false 1 [] [.node .text false 0 [0x62,0x63] []]) :=
    .node (by decide) (by decide) (by simp) (other (by decide)) (by simpa using leaf (by decide) (by decide) (other (by decide)))
  have array : Short asserts (.node .array true 0 [] [.node .array false 0 [] [],.node .int false (~~~300) [] [],
      .node .tag false 1 [] [.node .text false 0 [0x62,0x63] []]]) := by
    refine .node (by decide) (by decide) (by simp) (other (by decide)) ?_
    simp only [List.forall_mem_cons,List.not_mem_nil,false_imp_iff,implies_true,and_true]
    exact ⟨leaf (by decide) (by decide) (other (by decide)),leaf (by decide) (by decide) fun _ _ => by decide,tagged⟩
  refine .node (by decide) (by decide) (by simp) (other (by decide)) ?_
  simp only [List.forall_mem_cons,List.not_mem_nil,false_imp_iff,implies_true,and_true]
  exact ⟨leaf (by decide) (by decide) (other (by decide)),array,leaf (by decide) (by decide) (other (by decide)),
    leaf (by decide) (by decide) (other (by decide))⟩

/-- In a buffer of twenty bytes from the second on, and in one that has no byte to spare. -/
theorem cnCborEncoderWrite_nested : Short true nestedTree ∧
    cnCborEncoderWrite true ⟨id,id,fun _ => []⟩ (List.replicate 20 7) 1 20 (by decide) nestedTree =
      some ([7,0xa2,0x61,0x61,0x9f,0x80,0x39,0x01,0x2c,0xc1,0x62,0x62,0x63,0xff,0x05,0xf6,7,7,7,7],15) ∧
    ∃ after, cnCborEncoderWrite true ⟨id,id,fun _ => []⟩ (List.replicate 20 7) 1 16 (by decide) nestedTree = some (after,-1) := by
  have fits := cnCborEncoderWrite_eq true ⟨id,id,fun _ => []⟩ (List.replicate 20 7) 1 20 (by decide) nestedTree (short_nestedTree true)
  have tight := cnCborEncoderWrite_eq true ⟨id,id,fun _ => []⟩ (List.replicate 20 7) 1 16 (by decide) nestedTree (short_nestedTree true)
  rw [if_pos (by decide)] at fits
  rw [if_neg (by decide)] at tight
  refine ⟨short_nestedTree true,fits.trans ?_,tight⟩
  decide

end XivelyClient.Cbor
