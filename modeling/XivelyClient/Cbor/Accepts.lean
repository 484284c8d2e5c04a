import XivelyClient.Cbor.Decoder

/-! The loop of the decoder takes the sequences of the grammar, and nothing else. -/
namespace XivelyClient.Cbor

/-- What becomes of a turn before the bytes that are left. -/
def Turn.go (floats : Floats) (rest : List UInt8) : Turn → Except CborError Item
  | .again used stack => decodeItem floats (rest.drop used) stack
  | .done used root => if rest.drop used = [] then .ok root else .error .notAllDataConsumed
  | .fail err => .error err

section Turns

variable {floats : Floats} {stack : List Frame} {rest : List UInt8}

theorem decodeItem_nil : decodeItem floats [] stack = .error .outOfData := by rw [decodeItem]

theorem decodeItem_cons (ib : UInt8) : decodeItem floats (ib :: rest) stack = (turn floats ib rest stack).go floats rest := by
  rw [decodeItem]
  rfl

/-- The bytes of an item play no part in what it fills. -/
theorem go_fill (front : List UInt8) (cb : Item) :
    (fill front.length cb stack).go floats (front ++ rest) = (fill 0 cb stack).go floats rest := by
  induction stack generalizing cb with
  | nil => simp only [fill,Turn.go,List.drop_left,List.drop_zero]
  | cons parent above ih =>
    simp only [fill]
    split
    · split <;> simp only [Turn.go,List.drop_left,List.drop_zero]
    · split
      · split
        · simp only [Turn.go,List.drop_left,List.drop_zero]
        · exact ih _
      · exact ih _

theorem initialByte_toNat {mt ai : Nat} (types : mt < 8) (inside : ai < 32) :
    (initialByte mt ai).toNat / 32 = mt ∧ (initialByte mt ai).toNat % 32 = ai := by
  rw [initialByte,UInt8.toNat_ofNat_of_lt' (by simp only [UInt8.size]; omega)]
  omega

theorem initialByte_of (ib : UInt8) : ib = initialByte (ib.toNat / 32) (ib.toNat % 32) := by
  rw [initialByte,Nat.div_add_mod']
  exact (UInt8.ofNat_toNat).symm

theorem initialByte_ne {mt ai : Nat} (types : mt < 8) (inside : ai < 31) : initialByte mt ai ≠ 0xff := by
  intro same
  have both := @initialByte_toNat _ ai types (by omega)
  rw [same] at both
  have last : (0xff : UInt8).toNat % 32 = 31 := by decide
  omega

theorem Argument.facts {ai : Nat} {arg : List UInt8} {val : UInt64} (argument : Argument ai arg val) :
    ai < 28 ∧ arg.length = argumentSize ai ∧ (if ai < 24 then UInt64.ofNat ai else UInt64.ofNat (BigEndian.value arg)) = val := by
  cases argument with
  | short small =>
    refine ⟨by omega,?_,if_pos small⟩
    unfold argumentSize
    split <;> first | omega | rfl
  | @long i _ sizes size =>
    refine ⟨by omega,?_,if_neg (by omega)⟩
    rw [size]
    obtain rfl | rfl | rfl | rfl : i = 0 ∨ i = 1 ∨ i = 2 ∨ i = 3 := by omega
    all_goals rfl

/-- The head of an item with an argument. -/
theorem turn_head {mt ai : Nat} {arg : List UInt8} {val : UInt64} (types : mt < 8) (argument : Argument ai arg val) :
    (turn floats (initialByte mt ai) (arg ++ rest) stack) = content floats mt ai val arg.length rest stack := by
  obtain ⟨inside,size,value⟩ := argument.facts
  obtain ⟨high,low⟩ := @initialByte_toNat _ ai types (by omega)
  simp only [turn]
  rw [if_neg (initialByte_ne types (by omega)),high,low,if_neg (by omega),if_neg (by omega),
    if_neg (by rw [List.length_append]; omega),← size,List.take_left,List.drop_left,value]

theorem turn_indefinite {mt : Nat} (containers : 2 ≤ mt ∧ mt ≤ 6) :
    turn floats (initialByte mt 31) rest stack = .again 0 ({type := mtTrans mt,indef := true} :: stack) := by
  obtain ⟨high,low⟩ := @initialByte_toNat mt 31 (by omega) (by decide)
  have other : initialByte mt 31 ≠ 0xff := by
    intro same
    rw [same] at high
    have last : (0xff : UInt8).toNat / 32 = 7 := by decide
    omega
  simp only [turn]
  rw [if_neg other,high,low,if_neg (by decide),if_pos rfl,if_pos (by omega)]

theorem go_break {frame : Frame} (indef : frame.indef = true) (pairs : frame.type = .map → frame.children.length % 2 = 0) :
    decodeItem floats (0xff :: rest) (frame :: stack) =
      (fill 0 {frame with type := chunkedType frame.type}.close stack).go floats rest := by
  have even : ¬(frame.type = .map ∧ frame.children.length % 2 = 1) := by
    rintro ⟨map,odd⟩
    have := pairs map
    omega
  rw [decodeItem_cons,turn,if_pos rfl,breaks,if_neg (by simp [indef]),if_neg even]

end Turns

section Complete

/-- Items that are read one after the other, before bytes that are left. -/
def feed (floats : Floats) (rest : List UInt8) : List Item → List Frame → Except CborError Item
  | [],stack => decodeItem floats rest stack
  | item :: items,stack =>
    match fill 0 item stack with
    | .again _ stack => feed floats rest items stack
    | .done _ root => if items = [] ∧ rest = [] then .ok root else .error .notAllDataConsumed
    | .fail err => .error err

variable {floats : Floats} {stack : List Frame} {rest bytes : List UInt8} {items children : List Item} {frame : Frame}

theorem fill_used (cb : Item) : (∃ stack', fill 0 cb stack = .again 0 stack') ∨ (∃ root, fill 0 cb stack = .done 0 root) ∨
    ∃ err, fill 0 cb stack = .fail err := by
  induction stack generalizing cb with
  | nil => exact .inr (.inl ⟨_,rfl⟩)
  | cons parent above ih =>
    simp only [fill]
    split
    · split
      · exact .inr (.inr ⟨_,rfl⟩)
      · exact .inl ⟨_,rfl⟩
    · split
      · split
        · exact .inl ⟨_,rfl⟩
        · exact ih _
      · exact ih _

theorem feed_single (cb : Item) : feed floats rest [cb] stack = (fill 0 cb stack).go floats rest := by
  obtain ⟨stack',filled⟩ | ⟨root,filled⟩ | ⟨err,filled⟩ := @fill_used stack cb
  all_goals simp [feed,filled,Turn.go]

/-- A counted parent that waits for exactly these children. -/
theorem feed_counted (definite : frame.indef = false) {count : UInt64} (counted : frame.count = some count)
    (all : children.length = count.toNat) (some' : count ≠ 0) :
    feed floats rest children (frame :: stack) =
      (fill 0 {frame with children := frame.children ++ children}.close stack).go floats rest := by
  induction children generalizing frame count with
  | nil => exact (some' (UInt64.toNat_inj.mp all.symm)).elim
  | cons child children ih =>
    have positive : 0 < count.toNat := by
      rw [← all]
      exact Nat.succ_pos _
    have fewer : (count - 1).toNat = children.length := by
      rw [UInt64.toNat_sub_of_le _ _ (UInt64.le_iff_toNat_le.mpr (show (1 : UInt64).toNat ≤ count.toNat from positive)),← all]
      rfl
    have filled : fill 0 child (frame :: stack) =
        if count - 1 ≠ 0 then .again 0 ({frame.add child with count := some (count - 1)} :: stack)
        else fill 0 (frame.add child).close stack := by simp only [fill,definite,counted,Bool.false_eq_true,if_false]
    by_cases last : count - 1 = 0
    · obtain rfl : children = [] := by
        rw [last] at fewer
        exact List.length_eq_zero_iff.mp fewer.symm
      rw [feed_single,filled,if_neg (not_not.mpr last)]
      rfl
    · rw [if_pos last] at filled
      have next := @ih {frame.add child with count := some (count - 1)} definite _ rfl fewer.symm last
      simp only [feed,filled]
      refine next.trans ?_
      simp [Frame.add,Frame.close]

theorem feed_indef (indef : frame.indef = true)
    (pieces : frame.type = .bytes ∨ frame.type = .text → ∀ child ∈ children, child.type = frame.type) :
    feed floats rest children (frame :: stack) = decodeItem floats rest ({frame with children := frame.children ++ children} :: stack) := by
  induction children generalizing frame with
  | nil => simp [feed]
  | cons child children ih =>
    have taken : ¬((frame.type = .bytes ∨ frame.type = .text) ∧ child.type ≠ frame.type) := by
      rintro ⟨string,other⟩
      exact other (pieces string child List.mem_cons_self)
    have filled : fill 0 child (frame :: stack) = .again 0 (frame.add child :: stack) := by
      rw [fill,if_pos indef,if_neg taken]
    have next := @ih (frame.add child) indef fun string other member => pieces string other (List.mem_cons_of_mem _ member)
    simp only [feed,filled]
    refine next.trans ?_
    simp [Frame.add]

theorem Sequence.eq_nil_iff (sequence : Sequence floats items bytes) : bytes = [] ↔ items = [] := by
  cases sequence with
  | nil => simp
  | leaf leaf rest => cases leaf <;> simp
  | counted => simp
  | indefinite => simp

/-- The first item is there. -/
theorem go_feed {item : Item} {more : List UInt8} (sequence : Sequence floats items more)
    (later : ∀ rest stack, decodeItem floats (more ++ rest) stack = feed floats rest items stack) :
    (fill 0 item stack).go floats (more ++ rest) = feed floats rest (item :: items) stack := by
  obtain ⟨stack',filled⟩ | ⟨root,filled⟩ | ⟨err,filled⟩ := @fill_used stack item
  · simp only [filled,Turn.go,feed,List.drop_zero,later]
  · have ends : more ++ rest = [] ↔ items = [] ∧ rest = [] := by rw [List.append_eq_nil_iff,sequence.eq_nil_iff]
    simp only [filled,Turn.go,feed,List.drop_zero,ends]
  · simp only [filled,Turn.go,feed]

theorem Leaf.go {item : Item} (leaf : Leaf floats item bytes) :
    decodeItem floats (bytes ++ rest) stack = (fill 0 item stack).go floats rest := by
  cases leaf with
  | unsigned argument => rw [List.cons_append,decodeItem_cons,turn_head (by decide) argument,content,go_fill]
  | negative argument => rw [List.cons_append,decodeItem_cons,turn_head (by decide) argument,content,go_fill]
  | primitive argument => rw [List.cons_append,decodeItem_cons,turn_head (by decide) argument,content,go_fill] <;> decide
  | @string mt ai arg string val strings argument whole =>
    have types : mt < 8 := by omega
    have read : content floats mt ai val arg.length (string ++ rest) stack =
        fill (arg ++ string).length (.node (mtTrans mt) false 0 string []) stack := by
      have enough : ¬val.toNat > (string ++ rest).length := by rw [List.length_append]; omega
      obtain rfl | rfl := strings
      all_goals
        simp only [content]
        rw [if_neg enough,← whole,List.take_left,List.length_append]
    rw [List.cons_append,List.cons_append,List.append_assoc,decodeItem_cons,turn_head types argument,read,← List.append_assoc,go_fill]

/-- The children of an array, a map or a tag, behind its head. -/
theorem go_counted {mt ai : Nat} {arg body : List UInt8} {val : UInt64} (containers : mt = 4 ∨ mt = 5 ∨ mt = 6)
    (inner : Sequence floats children body) (count : children.length = announced mt val)
    (reads : ∀ rest stack, decodeItem floats (body ++ rest) stack = feed floats rest children stack) :
    (content floats mt ai val arg.length (body ++ rest) stack).go floats (arg ++ (body ++ rest)) =
      (fill 0 (.node (mtTrans mt) false (if mt = 6 then val else 0) [] children) stack).go floats rest := by
  have several (number : UInt64) (all : children.length = number.toNat) (type : CborType) :
      (if number ≠ 0 then Turn.again arg.length ({type := type,count := some number} :: stack)
        else fill arg.length (.node type false 0 [] []) stack).go floats (arg ++ (body ++ rest)) =
        (fill 0 (.node type false 0 [] children) stack).go floats rest := by
    by_cases none' : number = 0
    · obtain rfl : children = [] := by
        rw [none'] at all
        exact List.length_eq_zero_iff.mp all
      obtain rfl := inner.eq_nil_iff.mpr rfl
      rw [if_neg (not_not.mpr none'),List.nil_append,go_fill]
    · rw [if_pos none',Turn.go,List.drop_left,reads,feed_counted rfl rfl all none']
      rfl
  obtain rfl | rfl | rfl := containers
  · exact several val count _
  · exact several (val <<< 1) count _
  · obtain ⟨child,rfl⟩ := List.length_eq_one_iff.mp count
    rw [content,Turn.go,List.drop_left,reads,feed_single]
    rfl

theorem Sequence.feeds (sequence : Sequence floats items bytes) (rest : List UInt8) (stack : List Frame) :
    decodeItem floats (bytes ++ rest) stack = feed floats rest items stack := by
  induction sequence generalizing rest stack with
  | nil => rfl
  | leaf leaf more ih => rw [List.append_assoc,leaf.go,go_feed more ih]
  | counted containers argument inner count more innerIH ih =>
    rw [List.append_assoc,List.append_assoc,List.cons_append,decodeItem_cons,turn_head (by omega) argument,
      go_counted containers inner count innerIH,go_feed more ih]
  | indefinite containers inner fits more innerIH ih =>
    rw [List.cons_append,List.cons_append,List.append_assoc,List.cons_append,decodeItem_cons,turn_indefinite containers,Turn.go,List.drop_zero,innerIH,
      feed_indef rfl fits.pieces,go_break rfl fits.pairs]
    exact go_feed more ih

/-- What the grammar allows is taken. -/
theorem decode_of_sequence {root : Item} (sequence : Sequence floats [root] bytes) : cnCborDecode floats bytes = .ok root := by
  have whole := sequence.feeds [] []
  rwa [List.append_nil,feed_single] at whole

end Complete

section Sound

/-- How many children a parent of a definite length waits for. -/
def Frame.needs (frame : Frame) : Nat := (frame.count.map UInt64.toNat).getD 1

/-- A parent is completed by the items that the bytes begin with. -/
def Ends (floats : Floats) (frame : Frame) (needs : Nat) (bytes : List UInt8) (item : Item) (tail : List UInt8) : Prop :=
  ∃ more body, Sequence floats more body ∧
    if frame.indef then
      bytes = body ++ 0xff :: tail ∧ (frame.type = .bytes ∨ frame.type = .text → ∀ child ∈ more, child.type = frame.type) ∧
        (frame.type = .map → (frame.children ++ more).length % 2 = 0) ∧
        item = {frame with type := chunkedType frame.type,children := frame.children ++ more}.close
    else bytes = body ++ tail ∧ more.length = needs ∧ item = {frame with children := frame.children ++ more}.close

/-- What the open parents still demand of the bytes behind an item. -/
def Returns (floats : Floats) : List Frame → Item → List UInt8 → Item → Prop
  | [],node,tail,root => tail = [] ∧ root = node
  | frame :: above,node,tail,root =>
    (frame.indef = true → frame.type = .bytes ∨ frame.type = .text → node.type = frame.type) ∧
      ∃ item rest, Ends floats (frame.add node) (frame.needs - 1) tail item rest ∧ Returns floats above item rest root

/-- What they demand of the bytes before the next item. -/
def Completes (floats : Floats) : List Frame → List UInt8 → Item → Prop
  | [],bytes,root => Sequence floats [root] bytes
  | frame :: above,bytes,root => ∃ item rest, Ends floats frame frame.needs bytes item rest ∧ Returns floats above item rest root

/-- No parent waits for no child. -/
def Waiting (stack : List Frame) : Prop := ∀ frame ∈ stack, frame.count ≠ some 0

variable {floats : Floats} {stack above : List Frame} {rest bytes tail : List UInt8} {root node item : Item} {frame : Frame}

theorem Waiting.needs (waiting : Waiting (frame :: above)) : 0 < frame.needs := by
  have some' := waiting frame List.mem_cons_self
  rw [Frame.needs]
  cases counted : frame.count with
  | none => exact Nat.one_pos
  | some count =>
    apply Nat.pos_of_ne_zero
    intro zero
    have none' : count = 0 := UInt64.toNat_inj.mp zero
    exact some' (by rw [counted,none'])

theorem Waiting.outer (waiting : Waiting (frame :: above)) : Waiting above := fun other member => waiting other (List.mem_cons_of_mem _ member)

theorem Waiting.cons (waiting : Waiting above) (some' : frame.count ≠ some 0) : Waiting (frame :: above) := by
  intro other member
  obtain rfl | member := List.mem_cons.mp member
  · exact some'
  · exact waiting other member

/-- An item in front of what follows it. -/
theorem Returns.completes (waiting : Waiting stack)
    (first : ∀ items more, Sequence floats items more → Sequence floats (node :: items) (bytes ++ more))
    (returns : Returns floats stack node tail root) : Completes floats stack (bytes ++ tail) root := by
  cases stack with
  | nil =>
    obtain ⟨rfl,rfl⟩ := returns
    exact first [] [] .nil
  | cons frame above =>
    obtain ⟨takes,item,rest,⟨more,body,sequence,ends⟩,after⟩ := returns
    refine ⟨item,rest,⟨node :: more,bytes ++ body,first more body sequence,?_⟩,after⟩
    by_cases indef : frame.indef = true
    · simp only [Frame.add,indef,if_true] at ends ⊢
      obtain ⟨rfl,pieces,pairs,rfl⟩ := ends
      refine ⟨by rw [List.append_assoc],?_,by simpa using pairs,by simp⟩
      intro string child member
      obtain rfl | member := List.mem_cons.mp member
      · exact takes indef string
      · exact pieces string child member
    · simp only [Frame.add,indef,Bool.false_eq_true,if_false] at ends ⊢
      obtain ⟨rfl,count,rfl⟩ := ends
      have needs := waiting.needs
      refine ⟨by rw [List.append_assoc],?_,by simp⟩
      rw [List.length_cons,count]
      omega

/-- An item that is filled in goes to parents that the bytes behind it complete. -/
theorem returns_of_fill (waiting : Waiting stack)
    (later : ∀ stack, Waiting stack → decodeItem floats rest stack = .ok root → Completes floats stack rest root)
    (ok : (fill 0 node stack).go floats rest = .ok root) : Returns floats stack node rest root := by
  induction stack generalizing node with
  | nil =>
    simp only [fill,Turn.go,List.drop_zero] at ok
    split at ok
    · next empty => exact ⟨empty,(Except.ok.inj ok).symm⟩
    · cases ok
  | cons frame above ih =>
    simp only [fill] at ok
    by_cases indef : frame.indef = true
    · rw [if_pos indef] at ok
      by_cases wrong : (frame.type = .bytes ∨ frame.type = .text) ∧ node.type ≠ frame.type
      · rw [if_pos wrong] at ok
        cases ok
      · rw [if_neg wrong] at ok
        obtain ⟨item,tail,ends,after⟩ := later (frame.add node :: above)
          (waiting.outer.cons (waiting frame List.mem_cons_self)) (by simpa [Turn.go] using ok)
        refine ⟨fun _ string => not_not.mp fun other => wrong ⟨string,other⟩,item,tail,?_,after⟩
        obtain ⟨more,body,sequence,ends⟩ := ends
        refine ⟨more,body,sequence,?_⟩
        have still : (frame.add node).indef = true := indef
        rw [if_pos still] at ends ⊢
        exact ends
    · rw [if_neg indef] at ok
      refine ⟨fun indef' => (indef indef').elim,?_⟩
      have definite : (frame.add node).indef = false := Bool.not_eq_true _ ▸ indef
      cases counted : frame.count with
      | none =>
        simp only [counted] at ok
        refine ⟨_,rest,⟨[],[],.nil,?_⟩,ih waiting.outer ok⟩
        rw [definite]
        simp [Frame.needs,Frame.close,definite,counted]
      | some count =>
        simp only [counted] at ok
        by_cases last : count - 1 = 0
        · rw [if_neg (not_not.mpr last)] at ok
          have one : count = 1 := by
            rw [← sub_eq_zero]
            exact last
          refine ⟨_,rest,⟨[],[],.nil,?_⟩,ih waiting.outer ok⟩
          rw [definite]
          simp [Frame.needs,Frame.close,definite,counted,one]
        · rw [if_pos last] at ok
          obtain ⟨item,tail,ends,after⟩ := later ({frame.add node with count := some (count - 1)} :: above)
            (waiting.outer.cons (by simpa using last)) (by simpa [Turn.go] using ok)
          refine ⟨item,tail,?_,after⟩
          obtain ⟨more,body,sequence,ends⟩ := ends
          refine ⟨more,body,sequence,?_⟩
          have fewer : (count - 1).toNat = count.toNat - 1 := by
            apply UInt64.toNat_sub_of_le
            have some' : count ≠ 0 := fun none' => waiting frame List.mem_cons_self (by rw [counted,none'])
            exact UInt64.le_iff_toNat_le.mpr (Nat.one_le_iff_ne_zero.mpr fun zero => some' (UInt64.toNat_inj.mp zero))
          simp only [definite,Bool.false_eq_true,if_false] at ends ⊢
          obtain ⟨same,all,whole⟩ := ends
          exact ⟨same,by rw [all,Frame.needs,Frame.needs,counted]; exact fewer,whole⟩

theorem go_fill_drop {used : Nat} (enough : used ≤ rest.length) :
    (fill used node stack).go floats rest = (fill 0 node stack).go floats (rest.drop used) := by
  have split := @go_fill floats stack (rest.drop used) (rest.take used) node
  rwa [List.take_append_drop,List.length_take,Nat.min_eq_left enough] at split

theorem argument_of {ai : Nat} (inside : ai < 28) (enough : argumentSize ai ≤ rest.length) : Argument ai (rest.take (argumentSize ai))
    (if ai < 24 then UInt64.ofNat ai else UInt64.ofNat (BigEndian.value (rest.take (argumentSize ai)))) := by
  by_cases small : ai < 24
  · have none' : argumentSize ai = 0 := by
      unfold argumentSize
      split <;> omega
    rw [if_pos small,none',List.take_zero]
    exact .short small
  · rw [if_neg small]
    obtain ⟨i,rfl⟩ := Nat.exists_eq_add_of_le (Nat.le_of_not_lt small)
    have size : argumentSize (24 + i) = 2 ^ i := by
      obtain rfl | rfl | rfl | rfl : i = 0 ∨ i = 1 ∨ i = 2 ∨ i = 3 := by omega
      all_goals rfl
    exact .long (by omega) (by rw [List.length_take,size]; omega)

/-- An item without items in it was read. -/
theorem completes_of_leaf {used : Nat} {ib : UInt8} (waiting : Waiting stack) (enough : used ≤ rest.length)
    (leaf : Leaf floats node (ib :: rest.take used))
    (later : ∀ stack, Waiting stack → decodeItem floats (rest.drop used) stack = .ok root → Completes floats stack (rest.drop used) root)
    (ok : (fill used node stack).go floats rest = .ok root) : Completes floats stack (ib :: rest) root := by
  rw [go_fill_drop enough] at ok
  have whole := (returns_of_fill waiting later ok).completes waiting fun items more sequence => .leaf leaf sequence
  rwa [List.cons_append,List.take_append_drop] at whole

/-- The bytes behind the head of an array, a map or a tag complete it. -/
theorem completes_of_counted {mt ai used : Nat} {val : UInt64} (containers : mt = 4 ∨ mt = 5 ∨ mt = 6) (waiting : Waiting stack)
    (argument : Argument ai (rest.take used) val) (definite : frame.indef = false) (start : frame.children = [])
    (type : frame.type = mtTrans mt) (number : frame.uint = if mt = 6 then val else 0) (needs : frame.needs = announced mt val)
    (completes : Completes floats (frame :: stack) (rest.drop used) root) :
    Completes floats stack (initialByte mt ai :: rest) root := by
  obtain ⟨item,tail,⟨children,body,sequence,ends⟩,after⟩ := completes
  simp only [definite,Bool.false_eq_true,if_false] at ends
  obtain ⟨same,count,rfl⟩ := ends
  have first (items : List Item) (more : List UInt8) (behind : Sequence floats items more) :
      Sequence floats (.node frame.type false frame.uint [] (frame.children ++ children) :: items) (initialByte mt ai :: rest.take used ++ body ++ more) := by
    have counted := Sequence.counted containers argument sequence (count.trans needs) behind
    simpa [start,type,number] using counted
  rw [Frame.close] at after
  have whole := after.completes waiting first
  rwa [List.append_assoc,← same,List.cons_append,List.take_append_drop] at whole

theorem completes_of_content {mt ai : Nat} {val : UInt64} (types : mt < 8) (waiting : Waiting stack)
    (enough : argumentSize ai ≤ rest.length) (argument : Argument ai (rest.take (argumentSize ai)) val)
    (later : ∀ used stack, Waiting stack → decodeItem floats (rest.drop used) stack = .ok root →
      Completes floats stack (rest.drop used) root)
    (ok : (content floats mt ai val (argumentSize ai) (rest.drop (argumentSize ai)) stack).go floats rest = .ok root) :
    Completes floats stack (initialByte mt ai :: rest) root := by
  have container {number : UInt64} (containers : mt = 4 ∨ mt = 5) (announces : announced mt val = number.toNat)
      (ok : (if number ≠ 0 then Turn.again (argumentSize ai) ({type := mtTrans mt,count := some number} :: stack)
        else fill (argumentSize ai) (.node (mtTrans mt) false 0 [] []) stack).go floats rest = .ok root) :
      Completes floats stack (initialByte mt ai :: rest) root := by
    have other : ¬mt = 6 := by omega
    by_cases none' : number = 0
    · rw [if_neg (not_not.mpr none'),go_fill_drop enough] at ok
      have first (items : List Item) (more : List UInt8) (sequence : Sequence floats items more) :
          Sequence floats (.node (mtTrans mt) false 0 [] [] :: items) (initialByte mt ai :: rest.take (argumentSize ai) ++ more) := by
        have zero : ([] : List Item).length = announced mt val := by
          rw [announces,none']
          rfl
        have counted := Sequence.counted (by omega) argument .nil zero sequence
        simpa [other] using counted
      have empty := (returns_of_fill waiting (later _) ok).completes waiting first
      rwa [List.cons_append,List.take_append_drop] at empty
    · rw [if_pos none'] at ok
      have needs : Frame.needs {type := mtTrans mt,count := some number} = announced mt val := announces.symm
      exact completes_of_counted (by omega) waiting argument rfl rfl rfl (by rw [if_neg other]) needs
        (later _ _ (waiting.cons (by simpa using none')) ok)
  have string (strings : mt = 2 ∨ mt = 3) (ok : (if val.toNat > (rest.drop (argumentSize ai)).length then Turn.fail .outOfData
      else fill (argumentSize ai + val.toNat) (.node (mtTrans mt) false 0 ((rest.drop (argumentSize ai)).take val.toNat) []) stack).go
        floats rest = .ok root) : Completes floats stack (initialByte mt ai :: rest) root := by
    by_cases short : val.toNat > (rest.drop (argumentSize ai)).length
    · rw [if_pos short] at ok
      cases ok
    · rw [if_neg short] at ok
      rw [List.length_drop] at short
      refine completes_of_leaf waiting (by omega) ?_ (later _) ok
      rw [List.take_add]
      exact .string strings argument (by rw [List.length_take,List.length_drop]; omega)
  obtain rfl | rfl | rfl | rfl | rfl | rfl | rfl | rfl : mt = 0 ∨ mt = 1 ∨ mt = 2 ∨ mt = 3 ∨ mt = 4 ∨ mt = 5 ∨ mt = 6 ∨ mt = 7 := by
    omega
  · exact completes_of_leaf waiting enough (.unsigned argument) (later _) ok
  · exact completes_of_leaf waiting enough (.negative argument) (later _) ok
  · exact string (.inl rfl) ok
  · exact string (.inr rfl) ok
  · exact container (.inl rfl) rfl ok
  · exact container (.inr rfl) rfl ok
  · exact completes_of_counted (.inr (.inr rfl)) waiting argument rfl rfl rfl rfl rfl (later _ _ (waiting.cons (by simp)) ok)
  · exact completes_of_leaf waiting enough (.primitive argument) (later _) ok

theorem completes_of_break (waiting : Waiting stack)
    (later : ∀ stack, Waiting stack → decodeItem floats rest stack = .ok root → Completes floats stack rest root)
    (ok : (breaks 0 stack).go floats rest = .ok root) : Completes floats stack (0xff :: rest) root := by
  cases stack with
  | nil => cases ok
  | cons parent above =>
    rw [breaks] at ok
    by_cases indef : parent.indef = true
    · rw [if_neg (by simp [indef])] at ok
      by_cases odd : parent.type = .map ∧ parent.children.length % 2 = 1
      · rw [if_pos odd] at ok
        cases ok
      · rw [if_neg odd] at ok
        refine ⟨_,rest,⟨[],[],.nil,?_⟩,returns_of_fill waiting.outer later ok⟩
        rw [if_pos indef]
        refine ⟨rfl,fun _ child member => absurd member List.not_mem_nil,fun map => ?_,by rw [List.append_nil]⟩
        rw [List.append_nil]
        have even : ¬parent.children.length % 2 = 1 := fun one => odd ⟨map,one⟩
        omega
    · rw [if_pos (by simp [indef])] at ok
      cases ok

theorem completes_of_indefinite {mt : Nat} (containers : 2 ≤ mt ∧ mt ≤ 6) (waiting : Waiting stack)
    (completes : Completes floats ({type := mtTrans mt,indef := true} :: stack) rest root) :
    Completes floats stack (initialByte mt 31 :: rest) root := by
  obtain ⟨item,tail,⟨more,body,sequence,ends⟩,after⟩ := completes
  rw [if_pos rfl] at ends
  obtain ⟨rfl,pieces,pairs,rfl⟩ := ends
  have first (items : List Item) (bytes : List UInt8) (behind : Sequence floats items bytes) :
      Sequence floats (.node (chunkedType (mtTrans mt)) true 0 [] more :: items) (initialByte mt 31 :: body ++ [0xff] ++ bytes) := by
    have indefinite := Sequence.indefinite containers sequence ⟨pieces,pairs⟩ behind
    simpa using indefinite
  have whole := after.completes waiting first
  simpa using whole

theorem completes_of_decode (waiting : Waiting stack) (ok : decodeItem floats bytes stack = .ok root) :
    Completes floats stack bytes root := by
  induction length : bytes.length using Nat.strong_induction_on generalizing bytes stack with
  | _ length ih =>
    cases bytes with
    | nil =>
      rw [decodeItem_nil] at ok
      cases ok
    | cons ib rest =>
      have later (used : Nat) (stack : List Frame) (waiting : Waiting stack) (ok : decodeItem floats (rest.drop used) stack = .ok root) :
          Completes floats stack (rest.drop used) root :=
        ih _ (by rw [← length,List.length_drop,List.length_cons]; omega) waiting ok rfl
      rw [decodeItem_cons,turn] at ok
      by_cases stop : ib = 0xff
      · subst stop
        rw [if_pos rfl] at ok
        exact completes_of_break waiting (later 0) ok
      · rw [if_neg stop] at ok
        have types : ib.toNat / 32 < 8 := by
          have small := ib.toNat_lt
          omega
        by_cases reserved : ib.toNat % 32 = 28 ∨ ib.toNat % 32 = 29 ∨ ib.toNat % 32 = 30
        · rw [if_pos reserved] at ok
          cases ok
        · rw [if_neg reserved] at ok
          by_cases indef : ib.toNat % 32 = 31
          · rw [if_pos indef] at ok
            by_cases containers : 2 ≤ ib.toNat / 32 ∧ ib.toNat / 32 - 2 ≤ 5
            · rw [if_pos containers] at ok
              have other : ib.toNat / 32 ≠ 7 := by
                intro seven
                exact stop (by rw [initialByte_of ib,seven,indef]; rfl)
              rw [initialByte_of ib,indef]
              exact completes_of_indefinite (by omega) waiting (later 0 _ (waiting.cons (by simp)) ok)
            · rw [if_neg containers] at ok
              cases ok
          · rw [if_neg indef] at ok
            by_cases short : argumentSize (ib.toNat % 32) > rest.length
            · rw [if_pos short] at ok
              cases ok
            · rw [if_neg short] at ok
              rw [initialByte_of ib]
              exact completes_of_content types waiting (by omega) (argument_of (by omega) (by omega)) later ok

end Sound

/-- The decoder accepts the bytes of one item of the grammar, and makes that item of them. -/
theorem cnCborDecode_iff (floats : Floats) (buf : List UInt8) (root : Item) :
    cnCborDecode floats buf = .ok root ↔ Sequence floats [root] buf :=
  ⟨fun ok => completes_of_decode (fun _ member => absurd member List.not_mem_nil) ok,decode_of_sequence⟩

end XivelyClient.Cbor
