import XivelyClient.Cbor.Accepts
import XivelyClient.Cbor.Encoder

/-! What the encoder writes is read as what was written. What the decoder reads is written in no more bytes than it was read from. -/
namespace XivelyClient.Cbor

open WriteCursor

/-- A tree whose bytes say all that is in it, and that can be written. -/
inductive Canonical (asserts : Bool) (floats : Floats) : Item → Prop
  | constant {type : CborType} (known : type = .false ∨ type = .true ∨ type = .null ∨ type = .undef) : Canonical asserts floats (.node type false 0 [] [])
  | number {type : CborType} {val : UInt64} (numbers : type = .uint ∨ type = .int) (sign : Signed asserts type val) :
      Canonical asserts floats (.node type false val [] [])
  | string {type : CborType} {str : List UInt8} (strings : type = .bytes ∨ type = .text) (short : str.length < 2 ^ 31) :
      Canonical asserts floats (.node type false 0 str [])
  | simple {val : UInt64} (unnamed : val.toNat < 20 ∨ 24 ≤ val.toNat ∧ val.toNat < 256) : Canonical asserts floats (.node .simple false val [] [])
  | double {val : UInt64} (exact : Leaf floats (.node .double false val [] []) (floats.written val)) :
      Canonical asserts floats (.node .double false val [] [])
  | array {indef : Bool} {children : List Item} (count : children.length < 2 ^ 31) (inner : ∀ child ∈ children, Canonical asserts floats child) :
      Canonical asserts floats (.node .array indef 0 [] children)
  | map {indef : Bool} {children : List Item} (count : children.length < 2 ^ 31) (pairs : children.length % 2 = 0)
      (inner : ∀ child ∈ children, Canonical asserts floats child) : Canonical asserts floats (.node .map indef 0 [] children)
  | tag {val : UInt64} {child : Item} (inner : Canonical asserts floats child) : Canonical asserts floats (.node .tag false val [] [child])
  | chunked {type : CborType} {children : List Item} (strings : type = .bytes ∨ type = .text) (count : children.length < 2 ^ 31)
      (pieces : ∀ child ∈ children, child.type = type) (inner : ∀ child ∈ children, Canonical asserts floats child) :
      Canonical asserts floats (.node (chunkedType type) true 0 [] children)

section Write

variable {asserts : Bool} {floats : Floats} {item : Item} {items : List Item} {bytes : List UInt8}

theorem signed_of_ne {type : CborType} {uint : UInt64} (other : type ≠ .int) : Signed asserts type uint := fun _ int => absurd int other

theorem Canonical.short (canonical : Canonical asserts floats item) : Short asserts item := by
  induction canonical with
  | constant known => exact .node (by rintro rfl; simp at known) (by simp) (by simp) (signed_of_ne (by rintro rfl; simp at known)) (by simp)
  | number numbers sign => exact .node (by rintro rfl; simp at numbers) (by simp) (by simp) sign (by simp)
  | string strings short => exact .node (by rintro rfl; simp at strings) short (by simp) (signed_of_ne (by rintro rfl; simp at strings)) (by simp)
  | simple _ => exact .node (by simp) (by simp) (by simp) (signed_of_ne (by simp)) (by simp)
  | double _ => exact .node (by simp) (by simp) (by simp) (signed_of_ne (by simp)) (by simp)
  | array count _ ih => exact .node (by simp) (by simp) count (signed_of_ne (by simp)) ih
  | map count _ _ ih => exact .node (by simp) (by simp) count (signed_of_ne (by simp)) ih
  | tag _ ih => exact .node (by simp) (by simp) (by simp) (signed_of_ne (by simp)) (by simpa using ih)
  | @chunked type _ strings count _ _ ih =>
    have other : chunkedType type ≠ .int := by obtain rfl | rfl := strings <;> simp [chunkedType]
    exact .node (by obtain rfl | rfl := strings <;> simp [chunkedType]) (by simp) count (signed_of_ne other) ih

/-- The shortest form of a number stands for it. -/
theorem shortest_argument (val : UInt64) : Argument (shortest val).1 (shortest val).2 val := by
  have small := val.toNat_lt
  have long (i : Nat) (sizes : i < 4) (below : val.toNat < 256 ^ 2 ^ i) : Argument (24 + i) (BigEndian.bytes (2 ^ i) val.toNat) val := by
    have argument : Argument (24 + i) (BigEndian.bytes (2 ^ i) val.toNat) _ := .long sizes (BigEndian.length_bytes _ _)
    rwa [BigEndian.value_bytes,Nat.mod_eq_of_lt below,UInt64.ofNat_toNat] at argument
  rw [shortest]
  split
  · next below =>
    have argument : Argument val.toNat [] _ := .short below
    rwa [UInt64.ofNat_toNat] at argument
  · split
    · exact long 0 (by decide) (by omega)
    · split
      · exact long 1 (by decide) (by omega)
      · split
        · exact long 2 (by decide) (by omega)
        · exact long 3 (by decide) (by omega)

/-- The count of a list of children in the head. -/
theorem toNat_count {n : Nat} (short : n < 2 ^ 31) : (UInt64.ofNat n).toNat = n := UInt64.toNat_ofNat_of_lt' (by
  simp only [UInt64.size]
  omega)

theorem sequence_of_inner {children : List Item}
    (inner : ∀ child ∈ children, ∀ items bytes, Sequence floats items bytes → Sequence floats (child :: items) (emit floats child ++ bytes)) :
    Sequence floats children (emitAll floats children) := by
  induction children with
  | nil =>
    rw [emitAll]
    exact .nil
  | cons child children ih =>
    rw [emitAll]
    exact inner child List.mem_cons_self _ _ (ih fun other member => inner other (List.mem_cons_of_mem _ member))

theorem Canonical.sequence (canonical : Canonical asserts floats item) (items : List Item) (bytes : List UInt8)
    (rest : Sequence floats items bytes) : Sequence floats (item :: items) (emit floats item ++ bytes) := by
  induction canonical generalizing items bytes with
  | constant known =>
    have leaf (ai : Nat) (small : ai < 24) : Leaf floats (primitive floats ai (UInt64.ofNat ai)) [initialByte 7 ai] :=
      .primitive (.short small)
    obtain rfl | rfl | rfl | rfl := known
    · exact .leaf (leaf 20 (by decide)) rest
    · exact .leaf (leaf 21 (by decide)) rest
    · exact .leaf (leaf 22 (by decide)) rest
    · exact .leaf (leaf 23 (by decide)) rest
  | @number type val numbers _ =>
    simp only [emit,emitAll,List.append_nil,Bool.false_eq_true,if_false]
    obtain rfl | rfl := numbers
    · exact .leaf (.unsigned (shortest_argument val)) rest
    · have leaf : Leaf floats (.node .int false _ [] []) _ := .negative (shortest_argument (~~~val))
      rw [UInt64.not_not] at leaf
      exact .leaf leaf rest
  | @string type str strings short =>
    have argument := shortest_argument (UInt64.ofNat str.length)
    simp only [emit,emitAll,List.append_nil,Bool.false_eq_true,if_false]
    obtain rfl | rfl := strings
    · exact .leaf (.string (.inl rfl) argument (toNat_count short).symm) rest
    · exact .leaf (.string (.inr rfl) argument (toNat_count short).symm) rest
  | @simple val unnamed =>
    have leaf : Leaf floats _ (positive 7 val) := .primitive (shortest_argument val)
    have same : primitive floats (shortest val).1 val = .node .simple false val [] [] := by
      rw [shortest]
      obtain low | ⟨high,low⟩ := unnamed
      · rw [if_pos (by omega)]
        unfold primitive
        split <;> first | omega | rfl
      · rw [if_neg (by omega),if_pos low]
        rfl
    rw [same] at leaf
    simp only [emit,emitAll,List.append_nil,Bool.false_eq_true,if_false]
    exact .leaf leaf rest
  | double exact' =>
    simp only [emit,emitAll,List.append_nil,Bool.false_eq_true,if_false]
    exact .leaf exact' rest
  | @array indef children count _ ih =>
    have inner := sequence_of_inner ih
    cases indef with
    | true =>
      have whole := @Sequence.indefinite floats 4 children items _ _ (by decide) inner ⟨by simp [mtTrans],by simp [mtTrans]⟩ rest
      simpa [emit,head,mtTrans,chunkedType] using whole
    | false =>
      have whole := @Sequence.counted floats 4 _ _ _ children items _ _ (.inl rfl) (shortest_argument (UInt64.ofNat children.length)) inner (toNat_count count).symm rest
      simpa [emit,head,positive,mtTrans] using whole
  | @map indef children count pairs _ ih =>
    have inner := sequence_of_inner ih
    cases indef with
    | true =>
      have whole := @Sequence.indefinite floats 5 children items _ _ (by decide) inner ⟨by simp [mtTrans],fun _ => pairs⟩ rest
      simpa [emit,head,mtTrans,chunkedType] using whole
    | false =>
      have all : children.length = announced 5 (UInt64.ofNat (children.length / 2)) := by
        rw [announced,if_neg (by decide),if_pos rfl,UInt64.toNat_shiftLeft,toNat_count (by omega)]
        simp [Nat.shiftLeft_eq]
        omega
      have whole := @Sequence.counted floats 5 _ _ _ children items _ _ (.inr (.inl rfl)) (shortest_argument (UInt64.ofNat (children.length / 2))) inner all rest
      simpa [emit,head,positive,mtTrans] using whole
  | @tag val child _ ih =>
    have inner : Sequence floats [child] (emitAll floats [child]) := sequence_of_inner (by simpa using ih)
    have whole := @Sequence.counted floats 6 _ _ _ [child] items _ _ (.inr (.inr rfl)) (shortest_argument val) inner rfl rest
    simpa [emit,head,positive,mtTrans] using whole
  | @chunked type children strings count pieces _ ih =>
    have inner := sequence_of_inner ih
    obtain rfl | rfl := strings
    · have whole := @Sequence.indefinite floats 2 children items _ _ (by decide) inner ⟨fun _ => pieces,by simp [mtTrans]⟩ rest
      simpa [emit,head,mtTrans,chunkedType] using whole
    · have whole := @Sequence.indefinite floats 3 children items _ _ (by decide) inner ⟨fun _ => pieces,by simp [mtTrans]⟩ rest
      simpa [emit,head,mtTrans,chunkedType] using whole

theorem Canonical.decode (canonical : Canonical asserts floats item) : cnCborDecode floats (emit floats item) = .ok item := by
  have whole := canonical.sequence [] [] .nil
  rw [List.append_nil] at whole
  exact decode_of_sequence whole

/-- The result of `cn_cbor_encoder_write` says how many bytes to read back, behind whatever was there before. -/
theorem cnCborDecode_written (asserts : Bool) (buf : List UInt8) (bufOffset bufSize : Nat) (room : bufSize ≤ buf.length) (cb : Item)
    (canonical : Canonical false floats cb) (after : List UInt8) (size : Int)
    (written : cnCborEncoderWrite asserts floats buf bufOffset bufSize room cb = some (after,size)) (fitted : size ≠ -1) :
    cnCborDecode floats ((after.drop bufOffset).take size.toNat) = .ok cb := by
  have same := cnCborEncoderWrite_asserted floats buf room written
  by_cases fits : bufOffset + (emit floats cb).length < bufSize
  · rw [cnCborEncoderWrite_fits floats buf room canonical.short fits] at same
    obtain ⟨rfl,rfl⟩ := Prod.mk.inj (Option.some.inj same)
    rw [Int.toNat_natCast,take_drop_overwrite (by omega)]
    exact canonical.decode
  · obtain ⟨after',tight⟩ := cnCborEncoderWrite_over floats buf room canonical.short fits
    rw [tight] at same
    exact (fitted (Prod.mk.inj (Option.some.inj same)).2.symm).elim

end Write

theorem canonical_nestedTree (asserts : Bool) (floats : Floats) : Canonical asserts floats nestedTree := by
  have tagged : Canonical asserts floats (.node .tag false 1 [] [.node .text false 0 [0x62,0x63] []]) := .tag (.string (.inr rfl) (by decide))
  have array : Canonical asserts floats (.node .array true 0 [] [.node .array false 0 [] [],.node .int false (~~~300) [] [],
      .node .tag false 1 [] [.node .text false 0 [0x62,0x63] []]]) := by
    refine .array (by decide) ?_
    simp only [List.forall_mem_cons,List.not_mem_nil,false_imp_iff,implies_true,and_true]
    exact ⟨.array (by decide) (by simp),.number (.inr rfl) fun _ _ => by decide,tagged⟩
  refine .map (by decide) (by decide) ?_
  simp only [List.forall_mem_cons,List.not_mem_nil,false_imp_iff,implies_true,and_true]
  exact ⟨.string (.inr rfl) (by decide),array,.number (.inl rfl) (signed_of_ne (by decide)),.constant (.inr (.inr (.inl rfl)))⟩

theorem cnCborDecode_written_nested : Canonical false ⟨id,id,fun _ => []⟩ nestedTree ∧
    ∃ after size, cnCborEncoderWrite true ⟨id,id,fun _ => []⟩ (List.replicate 20 7) 1 20 (by decide) nestedTree = some (after,size) ∧ size ≠ -1 ∧
      cnCborDecode ⟨id,id,fun _ => []⟩ ((after.drop 1).take size.toNat) = .ok nestedTree := by
  have canonical : Canonical false ⟨id,id,fun _ => []⟩ nestedTree := canonical_nestedTree _ _
  have written := cnCborEncoderWrite_fits ⟨id,id,fun _ => []⟩ (List.replicate 20 7) (show 20 ≤ 20 by decide) (short_nestedTree true)
    (show 1 + (emit ⟨id,id,fun _ => []⟩ nestedTree).length < 20 by decide)
  exact ⟨canonical,_,_,written,by decide,cnCborDecode_written true (List.replicate 20 7) 1 20 (by decide) nestedTree canonical _ _ written (by decide)⟩

section Again

/-- A tree without the items that are not written as they were read: a tag without an end, a simple value with a name of its own, a
double, for which there are several forms, and where signs are asserted a number below -2^63, which is read as one that is not negative. -/
inductive Rewritable (asserts : Bool) : Item → Prop
  | node {type : CborType} {indef : Bool} {uint : UInt64} {str : List UInt8} {children : List Item} (tags : type = .tag → indef = false)
      (named : type = .simple → ¬(20 ≤ uint.toNat ∧ uint.toNat < 24)) (exact : type ≠ .double) (sign : Signed asserts type uint)
      (inner : ∀ child ∈ children, Rewritable asserts child) : Rewritable asserts (.node type indef uint str children)

variable {asserts : Bool} {floats : Floats} {item : Item} {items : List Item} {bytes : List UInt8}

theorem Argument.shortest_le {ai : Nat} {arg : List UInt8} {val other : UInt64} (argument : Argument ai arg val)
    (smaller : other.toNat ≤ val.toNat) : (shortest other).2.length ≤ arg.length := by
  have size (i : Nat) (sizes : i < 4) (below : other.toNat < 256 ^ 2 ^ i) : (shortest other).2.length ≤ 2 ^ i := by
    obtain rfl | rfl | rfl | rfl : i = 0 ∨ i = 1 ∨ i = 2 ∨ i = 3 := by omega
    all_goals
      rw [shortest]
      split
      · simp
      · split
        · simp
        · split
          · first | omega | simp
          · split <;> first | omega | simp
  cases argument with
  | short small =>
    rw [UInt64.toNat_ofNat_of_lt' (by simp only [UInt64.size]; omega)] at smaller
    rw [shortest,if_pos (by omega)]
  | @long i _ sizes length =>
    rw [length]
    apply size i sizes
    have below := BigEndian.value_lt arg
    rw [length] at below
    refine lt_of_le_of_lt (smaller.trans ?_) below
    rw [UInt64.toNat_ofNat']
    exact Nat.mod_le _ _

theorem Argument.positive_le {ai : Nat} {arg : List UInt8} {val other : UInt64} (argument : Argument ai arg val) (mt : Nat)
    (smaller : other.toNat ≤ val.toNat) : (positive mt other).length ≤ arg.length + 1 := by
  have le := argument.shortest_le smaller
  simpa [positive] using le

theorem Leaf.length_pos (leaf : Leaf floats item bytes) : 0 < bytes.length := by
  cases leaf <;> exact Nat.succ_pos _

theorem Sequence.length_le (sequence : Sequence floats items bytes) : items.length ≤ bytes.length := by
  induction sequence with
  | nil => exact Nat.le_refl _
  | leaf leaf _ ih =>
    have some' := leaf.length_pos
    simp only [List.length_cons,List.length_append]
    omega
  | counted _ _ _ _ _ _ ih =>
    simp only [List.length_cons,List.length_append]
    omega
  | indefinite _ _ _ _ _ ih =>
    simp only [List.length_cons,List.length_append]
    omega

/-- The number of an item whose number is no double. -/
theorem Argument.small {ai : Nat} {arg : List UInt8} {val : UInt64} (argument : Argument ai arg val) :
    (ai < 24 → val.toNat = ai) ∧ (ai = 24 → val.toNat < 256) := by
  cases argument with
  | short small =>
    refine ⟨fun _ => ?_,fun named => by omega⟩
    rw [UInt64.toNat_ofNat_of_lt' (by simp only [UInt64.size]; omega)]
  | @long i _ sizes length =>
    refine ⟨fun small => by omega,fun named => ?_⟩
    obtain rfl : i = 0 := by omega
    have below := BigEndian.value_lt arg
    rw [length] at below
    rw [UInt64.toNat_ofNat']
    omega

/-- An item without items in it is written in its shortest form. -/
theorem Leaf.rewritten (leaf : Leaf floats item bytes) (short : bytes.length < 2 ^ 31) (rewritable : Rewritable asserts item) :
    Canonical asserts floats item ∧ (emit floats item).length ≤ bytes.length := by
  cases leaf with
  | unsigned argument =>
    refine ⟨.number (.inl rfl) (signed_of_ne (by decide)),?_⟩
    simpa [emit,emitAll,head] using argument.positive_le 0 le_rfl
  | @negative _ _ val argument =>
    obtain ⟨_,_,_,sign,_⟩ := rewritable
    refine ⟨.number (.inr rfl) sign,?_⟩
    have le := argument.positive_le 1 le_rfl
    simpa [emit,emitAll,head] using le
  | @string mt ai arg content val strings argument whole =>
    simp only [List.cons_append,List.length_cons,List.length_append] at short
    have same : (UInt64.ofNat content.length).toNat ≤ val.toNat := by
      rw [toNat_count (by omega)]
      exact Nat.le_of_eq whole
    obtain rfl | rfl := strings
    · refine ⟨.string (.inl rfl) (by omega),?_⟩
      have le := argument.positive_le 2 same
      simp only [mtTrans,emit,emitAll,head,List.append_nil,Bool.false_eq_true,if_false,List.cons_append,List.length_cons,List.length_append]
      omega
    · refine ⟨.string (.inr rfl) (by omega),?_⟩
      have le := argument.positive_le 3 same
      simp only [mtTrans,emit,emitAll,head,List.append_nil,Bool.false_eq_true,if_false,List.cons_append,List.length_cons,List.length_append]
      omega
  | @primitive ai arg val argument =>
    have le := argument.positive_le 7 le_rfl
    have known := argument.facts.1
    have value := argument.small
    rw [List.length_cons]
    revert rewritable
    unfold Cbor.primitive
    split
    · exact fun _ => ⟨.constant (.inl rfl),by simp [emit,emitAll,head]⟩
    · exact fun _ => ⟨.constant (.inr (.inl rfl)),by simp [emit,emitAll,head]⟩
    · exact fun _ => ⟨.constant (.inr (.inr (.inl rfl))),by simp [emit,emitAll,head]⟩
    · exact fun _ => ⟨.constant (.inr (.inr (.inr rfl))),by simp [emit,emitAll,head]⟩
    · rintro ⟨_,_,exact',_,_⟩
      exact (exact' rfl).elim
    · rintro ⟨_,_,exact',_,_⟩
      exact (exact' rfl).elim
    · rintro ⟨_,_,exact',_,_⟩
      exact (exact' rfl).elim
    · rintro ⟨_,named,_,_,_⟩
      have unnamed := named rfl
      have inside : ai < 24 ∨ ai = 24 := by grind
      exact ⟨.simple (by omega),by simpa [emit,emitAll,head] using le⟩

/-- Items that were read are written in no more bytes, and with all that is in them. -/
theorem Sequence.rewritten (sequence : Sequence floats items bytes) (short : bytes.length < 2 ^ 31)
    (rewritable : ∀ item ∈ items, Rewritable asserts item) :
    (∀ item ∈ items, Canonical asserts floats item) ∧ (emitAll floats items).length ≤ bytes.length := by
  induction sequence with
  | nil => simp [emitAll]
  | leaf leaf _ ih =>
    rw [List.length_append] at short
    obtain ⟨first,others⟩ := List.forall_mem_cons.mp rewritable
    obtain ⟨canonical,fewer⟩ := leaf.rewritten (by omega) first
    obtain ⟨canonicals,fewer'⟩ := ih (by omega) others
    refine ⟨List.forall_mem_cons.mpr ⟨canonical,canonicals⟩,?_⟩
    rw [emitAll,List.length_append,List.length_append]
    omega
  | @counted mt ai arg val children items body more containers argument inner count _ innerIH ih =>
    simp only [List.cons_append,List.length_cons,List.length_append] at short
    obtain ⟨first,others⟩ := List.forall_mem_cons.mp rewritable
    obtain ⟨_,_,_,_,below⟩ := first
    obtain ⟨canonicals,fewer⟩ := innerIH (by omega) below
    obtain ⟨canonicals',fewer'⟩ := ih (by omega) others
    have few := inner.length_le
    rw [List.forall_mem_cons,emitAll]
    simp only [List.cons_append,List.length_cons,List.length_append]
    obtain rfl | rfl | rfl := containers
    · refine ⟨⟨.array (by omega) canonicals,canonicals'⟩,?_⟩
      have same : (UInt64.ofNat children.length).toNat ≤ val.toNat := by
        rw [toNat_count (by omega)]
        exact Nat.le_of_eq count
      have le := argument.positive_le 4 same
      simp only [mtTrans,emit,head,Bool.false_eq_true,if_false,List.append_nil,List.length_append]
      omega
    · have twice : children.length = 2 * val.toNat % 2 ^ 64 := by
        rw [count,announced,if_neg (by decide),if_pos rfl,UInt64.toNat_shiftLeft]
        simp [Nat.shiftLeft_eq,Nat.mul_comm]
      refine ⟨⟨.map (by omega) (by omega) canonicals,canonicals'⟩,?_⟩
      have same : (UInt64.ofNat (children.length / 2)).toNat ≤ val.toNat := by
        rw [toNat_count (by omega)]
        omega
      have le := argument.positive_le 5 same
      simp only [mtTrans,emit,head,Bool.false_eq_true,if_false,List.append_nil,List.length_append]
      omega
    · obtain ⟨child,rfl⟩ := List.length_eq_one_iff.mp count
      refine ⟨⟨.tag (canonicals child List.mem_cons_self),canonicals'⟩,?_⟩
      have le := argument.positive_le 6 le_rfl
      simp only [mtTrans,emit,head,if_true,Bool.false_eq_true,if_false,List.append_nil,List.length_append]
      omega
  | @indefinite mt children items body more containers inner fits _ innerIH ih =>
    simp only [List.cons_append,List.length_cons,List.length_append] at short
    obtain ⟨first,others⟩ := List.forall_mem_cons.mp rewritable
    obtain ⟨tags,_,_,_,below⟩ := first
    obtain ⟨canonicals,fewer⟩ := innerIH (by omega) below
    obtain ⟨canonicals',fewer'⟩ := ih (by omega) others
    have few := inner.length_le
    rw [List.forall_mem_cons,emitAll]
    simp only [List.cons_append,List.length_cons,List.length_append]
    obtain rfl | rfl | rfl | rfl | rfl : mt = 2 ∨ mt = 3 ∨ mt = 4 ∨ mt = 5 ∨ mt = 6 := by omega
    · refine ⟨⟨.chunked (.inl rfl) (by omega) (fits.pieces (.inl rfl)) canonicals,canonicals'⟩,?_⟩
      simp [mtTrans,chunkedType,emit,head]
      omega
    · refine ⟨⟨.chunked (.inr rfl) (by omega) (fits.pieces (.inr rfl)) canonicals,canonicals'⟩,?_⟩
      simp [mtTrans,chunkedType,emit,head]
      omega
    · refine ⟨⟨.array (by omega) canonicals,canonicals'⟩,?_⟩
      simp [mtTrans,chunkedType,emit,head]
      omega
    · refine ⟨⟨.map (by omega) (fits.pairs rfl) canonicals,canonicals'⟩,?_⟩
      simp [mtTrans,chunkedType,emit,head]
      omega
    · cases tags rfl

/-- What was read from some bytes is written in no more of them, and read again. -/
theorem rewrite_decode (asserts : Bool) (buf : List UInt8) (short : buf.length < 2 ^ 31) (root : Item) (read : cnCborDecode floats buf = .ok root)
    (rewritable : Rewritable asserts root) : (emit floats root).length ≤ buf.length ∧ cnCborDecode floats (emit floats root) = .ok root ∧
    ∀ into bufOffset bufSize, (room : bufSize ≤ into.length) → bufOffset + buf.length < bufSize →
      cnCborEncoderWrite asserts floats into bufOffset bufSize room root =
        some (overwrite into bufOffset (emit floats root),((emit floats root).length : Int)) := by
  have sequence := completes_of_decode (fun _ member => absurd member List.not_mem_nil) read
  obtain ⟨canonicals,fewer⟩ := @Sequence.rewritten asserts _ _ _ sequence short (by simpa using rewritable)
  have canonical := canonicals root List.mem_cons_self
  rw [emitAll,emitAll,List.append_nil] at fewer
  exact ⟨fewer,canonical.decode,fun into bufOffset bufSize room more => cnCborEncoderWrite_fits floats into room canonical.short (by omega)⟩

/-- An array of a number in a longer form than it needs and a negative number, into a buffer of eight bytes. -/
theorem rewrite_decode_long : cnCborDecode ⟨id,id,fun _ => []⟩ [0x82,0x19,0,5,0x20] = .ok (.node .array false 0 [] [.node .uint false 5 [] [],.node .int false (~~~0) [] []]) ∧
    Rewritable true (.node .array false 0 [] [.node .uint false 5 [] [],.node .int false (~~~0) [] []]) ∧
    cnCborDecode ⟨id,id,fun _ => []⟩ [0x82,5,0x20] = .ok (.node .array false 0 [] [.node .uint false 5 [] [],.node .int false (~~~0) [] []]) ∧
      cnCborEncoderWrite true ⟨id,id,fun _ => []⟩ (List.replicate 8 7) 1 8 (by decide)
        (.node .array false 0 [] [.node .uint false 5 [] [],.node .int false (~~~0) [] []]) = some ([7,0x82,5,0x20,7,7,7,7],3) := by
  have long : Leaf ⟨id,id,fun _ => []⟩ (.node .uint false 5 [] []) [0x19,0,5] := .unsigned (@Argument.long 1 [0,5] (by decide) rfl)
  have negative : Leaf ⟨id,id,fun _ => []⟩ (.node .int false (~~~0) [] []) [0x20] := .negative (@Argument.short 0 (by decide))
  have inner : Sequence ⟨id,id,fun _ => []⟩ [.node .uint false 5 [] [],.node .int false (~~~0) [] []] [0x19,0,5,0x20] := .leaf long (.leaf negative .nil)
  have read := decode_of_sequence (@Sequence.counted _ 4 2 [] 2 _ [] _ [] (.inl rfl) (@Argument.short 2 (by decide)) inner rfl .nil)
  have sign : Signed true .array 0 := signed_of_ne (by decide)
  have rewritable : Rewritable true (.node .array false 0 [] [.node .uint false 5 [] [],.node .int false (~~~0) [] []]) := by
    refine .node (by decide) (by decide) (by decide) sign ?_
    simp only [List.forall_mem_cons,List.not_mem_nil,false_imp_iff,implies_true,and_true]
    exact ⟨.node (by decide) (by decide) (by decide) (signed_of_ne (by decide)) (by simp),
      .node (by decide) (by decide) (by decide) (fun _ _ => by decide) (by simp)⟩
  obtain ⟨_,again,writes⟩ := rewrite_decode true [0x82,0x19,0,5,0x20] (by decide) _ read rewritable
  refine ⟨read,rewritable,again,(writes (List.replicate 8 7) 1 8 (by decide) (by decide)).trans ?_⟩
  decide

end Again

end XivelyClient.Cbor
