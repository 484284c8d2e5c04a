import Mathlib.Data.List.TakeWhile
import XivelyClient.Lib.Json

/-! A sound value is read back from its own text; and where reading a text `raw j` gives `j`, the value is sound and the
reading ended with the text. -/
namespace Json

section Strings

theorem string_plain {n : Nat} {content rest : List UInt8} (plain : Plain content) (enough : content.length + 1 ≤ n) :
    string n (content ++ quote :: rest) = some (content,rest) := by
  induction content generalizing n with
  | nil =>
    cases n with
    | zero => exact absurd enough (by simp)
    | succ n => simp [string]
  | cons b content ih =>
    cases n with
    | zero => exact absurd enough (by simp)
    | succ n =>
      obtain ⟨control,ends,escaped⟩ := plain b (List.mem_cons_self ..)
      have others := ih (fun c member => plain c (List.mem_cons_of_mem b member)) (Nat.le_of_succ_le_succ enough)
      rw [List.cons_append,string,if_neg ends,if_neg escaped,if_neg (UInt8.not_lt.mpr control),others]
      rfl

/-- Whatever is left of the fuel, a plain string is read as itself. -/
theorem string_plain_content {n : Nat} {content rest c left : List UInt8} (plain : Plain content)
    (read : string n (content ++ quote :: rest) = some (c,left)) : c = content ∧ left = rest := by
  induction content generalizing n c with
  | nil =>
    cases n with
    | zero => cases read
    | succ n =>
      cases read
      exact ⟨rfl,rfl⟩
  | cons b content ih =>
    cases n with
    | zero => cases read
    | succ n =>
      obtain ⟨control,ends,escaped⟩ := plain b (List.mem_cons_self ..)
      rw [List.cons_append,string,if_neg ends,if_neg escaped,if_neg (UInt8.not_lt.mpr control)] at read
      obtain ⟨⟨tail,left'⟩,later,same⟩ := Option.map_eq_some_iff.mp read
      cases same
      obtain ⟨rfl,ended⟩ := ih (fun d member => plain d (List.mem_cons_of_mem b member)) later
      exact ⟨rfl,ended⟩

/-- A byte that stands for itself in a string or ends it, escaped or not. -/
structure Stop (b : UInt8) : Prop where
  printable : 0x20 ≤ b
  free : b ≠ backslash
  noDigit : hexDigit b = none
  alone : ∀ src bytes left, unescape (b :: src) = some (bytes,left) → bytes = [b] ∧ left = src

theorem Stop.quote : Stop quote := ⟨by decide,by decide,by decide,fun src bytes left read => by
  cases read
  exact ⟨rfl,rfl⟩⟩

theorem Stop.comma : Stop comma := ⟨by decide,by decide,by decide,nofun⟩

theorem Stop.closeObject : Stop closeObject := ⟨by decide,by decide,by decide,nofun⟩

theorem codeUnit_stop {b : UInt8} {d rest left : List UInt8} {u : Nat} (noDigit : hexDigit b = none)
    (read : codeUnit (d ++ b :: rest) = some (u,left)) :
    ∃ d', left = d' ++ b :: rest ∧ d.length = d'.length + 4 ∧ d.count b = d'.count b := by
  rw [codeUnit.eq_def] at read
  split at read
  case h_2 => cases read
  case h_1 w x y z src same =>
    simp only [Option.bind_eq_bind,Option.bind_eq_some_iff,Option.pure_def,Option.some.injEq,Prod.mk.injEq] at read
    obtain ⟨_,first,_,second,_,third,_,fourth,_,rfl⟩ := read
    have digit : ∀ {c : UInt8} {k : Nat}, hexDigit c = some k → c ≠ b := by
      rintro c k digit rfl
      rw [noDigit] at digit
      cases digit
    have apart := And.intro (digit first) (And.intro (digit second) (And.intro (digit third) (digit fourth)))
    match d,same with
    | [],same => exact absurd (List.cons.inj same).1.symm apart.1
    | [_],same => exact absurd (List.cons.inj (List.cons.inj same).2).1.symm apart.2.1
    | [_,_],same => exact absurd (List.cons.inj (List.cons.inj (List.cons.inj same).2).2).1.symm apart.2.2.1
    | [_,_,_],same => exact absurd (List.cons.inj (List.cons.inj (List.cons.inj (List.cons.inj same).2).2).2).1.symm apart.2.2.2
    | _ :: _ :: _ :: _ :: d',same =>
      simp only [List.cons_append,List.cons.injEq] at same
      obtain ⟨rfl,rfl,rfl,rfl,rfl⟩ := same
      refine ⟨d',rfl,rfl,?_⟩
      rw [List.count_cons_of_ne apart.1,List.count_cons_of_ne apart.2.1,List.count_cons_of_ne apart.2.2.1,
        List.count_cons_of_ne apart.2.2.2]

theorem unitBytes_length (u : Nat) : (unitBytes u).length ≤ 3 := by
  rw [unitBytes]
  split
  · simp
  · split <;> simp

/-- An escape is one byte for one byte, or one code unit. -/
theorem unescape_cons {x : UInt8} {src bytes left : List UInt8} (read : unescape (x :: src) = some (bytes,left)) :
    (left = src ∧ bytes.length = 1) ∨ ∃ u, codeUnit src = some (u,left) ∧ bytes = unitBytes u := by
  rw [unescape] at read
  split_ifs at read
  iterate 6
    · cases read
      exact .inl ⟨rfl,rfl⟩
  · obtain ⟨⟨u,rest⟩,unit,same⟩ := Option.map_eq_some_iff.mp read
    cases same
    exact .inr ⟨u,unit,rfl⟩

/-- An escape takes a stop with it, or it is followed by a shorter piece up to the stop with no less of the stops. -/
theorem escape_stop {b : UInt8} (stop : Stop b) {d rest bytes src : List UInt8} (read : unescape (d ++ b :: rest) = some (bytes,src)) :
    (d = [] ∧ bytes = [b]) ∨
      ∃ d', src = d' ++ b :: rest ∧ bytes.length + d'.length ≤ d.length ∧ d.count b ≤ bytes.count b + d'.count b := by
  cases d with
  | nil => exact .inl ⟨rfl,(stop.alone _ _ _ read).1⟩
  | cons x d =>
    refine .inr ?_
    rw [List.length_cons]
    by_cases same : x = b
    · rw [same] at read ⊢
      obtain ⟨rfl,rfl⟩ := stop.alone _ _ _ read
      rw [List.count_cons_self,List.count_singleton_self,List.length_singleton]
      exact ⟨d,rfl,by omega,by omega⟩
    · rw [List.count_cons_of_ne same]
      rcases unescape_cons read with ⟨rfl,one⟩ | ⟨u,unit,rfl⟩
      · exact ⟨d,rfl,by omega,by omega⟩
      · obtain ⟨d',rfl,length,count⟩ := codeUnit_stop stop.noDigit unit
        have short := unitBytes_length u
        exact ⟨d',rfl,by omega,by omega⟩

/-- Reading over `d` up to a stop gives something shorter, or something with one more of the stop in it, or ends there. -/
theorem string_stop {b : UInt8} (stop : Stop b) {n : Nat} {d rest content left : List UInt8}
    (read : string n (d ++ b :: rest) = some (content,left)) :
    content.length < d.length ∨ d.count b < content.count b ∨ (b = quote ∧ Plain d ∧ content = d ∧ left = rest) := by
  induction n generalizing d content with
  | zero => cases read
  | succ n ih =>
    cases d with
    | nil =>
      rw [List.nil_append,string,if_neg stop.free,if_neg (UInt8.not_lt.mpr stop.printable)] at read
      split_ifs at read with ends
      · cases read
        exact .inr (.inr ⟨ends,nofun,rfl,rfl⟩)
      · obtain ⟨⟨tail,left'⟩,_,same⟩ := Option.map_eq_some_iff.mp read
        cases same
        exact .inr (.inl (by simp))
    | cons c d =>
      rw [List.cons_append,string] at read
      split_ifs at read with ends escaped control
      · cases read
        exact .inl (Nat.zero_lt_succ _)
      · obtain ⟨⟨bytes,src⟩,unescaped,more⟩ := Option.bind_eq_some_iff.mp read
        obtain ⟨⟨tail,left'⟩,later,same⟩ := Option.map_eq_some_iff.mp more
        cases same
        have notStop : c ≠ b := escaped ▸ stop.free.symm
        rw [List.length_cons,List.length_append,List.count_cons_of_ne notStop,List.count_append]
        rcases escape_stop stop unescaped with ⟨rfl,rfl⟩ | ⟨d',rfl,shorter,stops⟩
        · exact .inr (.inl (by rw [List.count_singleton_self,List.count_nil]; omega))
        · rcases ih later with short | more | ⟨_,_,rfl,_⟩
          · exact .inl (by omega)
          · exact .inr (.inl (by omega))
          · exact .inl (by omega)
      · obtain ⟨⟨tail,left'⟩,later,same⟩ := Option.map_eq_some_iff.mp read
        cases same
        rw [List.length_cons,List.length_cons]
        rcases ih later with shorter | more | ⟨isQuote,plain,rfl,rfl⟩
        · exact .inl (by omega)
        · refine .inr (.inl ?_)
          rw [List.count_cons,List.count_cons]
          omega
        · refine .inr (.inr ⟨isQuote,?_,rfl,rfl⟩)
          intro y member
          rcases List.mem_cons.mp member with rfl | inside
          · exact ⟨UInt8.not_lt.mp control,ends,escaped⟩
          · exact plain y inside

/-- A string that is read as it stands between its quotes is plain. -/
theorem string_quoted {n : Nat} {content rest left : List UInt8} (read : string n (content ++ quote :: rest) = some (content,left)) :
    Plain content ∧ left = rest := by
  rcases string_stop Stop.quote read with shorter | more | ⟨_,plain,_,same⟩
  · exact absurd shorter (Nat.lt_irrefl _)
  · exact absurd more (Nat.lt_irrefl _)
  · exact ⟨plain,same⟩

/-- Without its last quote no string is read as it stands. -/
theorem string_unquoted {b : UInt8} (stop : Stop b) (other : b ≠ quote) {n : Nat} {content rest left : List UInt8} :
    string n (content ++ b :: rest) ≠ some (content,left) := by
  intro read
  rcases string_stop stop read with shorter | more | ⟨same,_⟩
  · exact absurd shorter (Nat.lt_irrefl _)
  · exact absurd more (Nat.lt_irrefl _)
  · exact other same

end Strings

section Reading

/-- The text of members behind another one. -/
def moreMembers : Members → List UInt8
  | .nil => []
  | .cons key v rest => comma :: rawMembers (.cons key v rest)

/-- The text of items behind another one. -/
def moreItems : Items → List UInt8
  | .nil => []
  | .cons item rest => comma :: rawItems (.cons item rest)

theorem rawMembers_more (key : List UInt8) (v : Value) (rest : Members) :
    rawMembers (.cons key v rest) = quoted key ++ colon :: raw v ++ moreMembers rest := by
  cases rest with
  | nil => rw [rawMembers,moreMembers,List.append_nil]
  | cons key' w rest => rw [rawMembers,moreMembers]

theorem rawItems_more (item : Value) (rest : Items) : rawItems (.cons item rest) = raw item ++ moreItems rest := by
  cases rest with
  | nil => rw [rawItems,moreItems,List.append_nil]
  | cons next rest => rw [rawItems,moreItems]

theorem skipBlanks_cons {b : UInt8} {rest : List UInt8} (mark : isBlank b = false) : skipBlanks (b :: rest) = b :: rest := by
  rw [skipBlanks,List.dropWhile_cons_of_neg (by simp [mark])]

theorem expect_cons {b c : UInt8} {rest : List UInt8} (mark : isBlank c = false) :
    expect b (c :: rest) = if c = b then some rest else none := by
  rw [expect,skipBlanks_cons mark]

/-- The number before it ends here. -/
def Ends (rest : List UInt8) : Prop := ∀ b, rest.head? = some b → numberChar b = false

theorem validNumber_chars {token : List UInt8} (valid : validNumber token = true) : ∀ b ∈ token, numberChar b = true := by
  simp only [validNumber.eq_def,Bool.and_eq_true] at valid
  exact List.all_eq_true.mp valid.1

theorem validNumber_head {b : UInt8} {token : List UInt8} (valid : validNumber (b :: token) = true) : numberChar b = true :=
  validNumber_chars valid b (List.mem_cons_self ..)

theorem number_raw {token rest : List UInt8} (valid : validNumber token = true) (ends : Ends rest) :
    number (token ++ rest) = some (.number token,rest) := by
  have chars := validNumber_chars valid
  have stops : rest.takeWhile numberChar = [] ∧ rest.dropWhile numberChar = rest := by
    cases rest with
    | nil => exact ⟨rfl,rfl⟩
    | cons b rest => exact ⟨List.takeWhile_cons_of_neg (by simp [ends b rfl]),List.dropWhile_cons_of_neg (by simp [ends b rfl])⟩
  rw [number,List.takeWhile_append_of_pos chars,List.dropWhile_append_of_pos chars,stops.1,stops.2,List.append_nil]
  exact if_pos valid

theorem literal_raw (word rest : List UInt8) (v : Value) : literal word v (word ++ rest) = some (v,rest) := by
  rw [literal,if_pos (List.isPrefixOf_iff_prefix.mpr (List.prefix_append word rest)),List.drop_left]

/-- The first byte of a text is no blank and closes nothing. -/
theorem raw_head {j : Value} (sound : Sound j) :
    ∃ b rest, raw j = b :: rest ∧ isBlank b = false ∧ b ≠ closeArray ∧ b ≠ closeObject := by
  cases j with
  | null => exact ⟨_,_,rfl,by decide⟩
  | bool b => cases b <;> exact ⟨_,_,rfl,by decide⟩
  | string content => exact ⟨_,_,rfl,by decide⟩
  | array items => exact ⟨_,_,rfl,by decide⟩
  | object members => exact ⟨_,_,rfl,by decide⟩
  | number token =>
    have valid : validNumber token = true := sound
    cases token with
    | nil => cases valid
    | cons b token =>
      have char := validNumber_head valid
      refine ⟨b,token,rfl,?_,?_,?_⟩
      · cases blank : isBlank b with
        | false => rfl
        | true =>
          simp only [isBlank,Bool.or_eq_true,beq_iff_eq,or_assoc] at blank
          rcases blank with rfl | rfl | rfl | rfl
          all_goals exact absurd char (by decide)
      · rintro rfl
        exact absurd char (by decide)
      · rintro rfl
        exact absurd char (by decide)

theorem rawItems_head {item : Value} (rest : Items) (sound : Sound item) :
    ∃ b left, rawItems (.cons item rest) = b :: left ∧ isBlank b = false ∧ b ≠ closeArray := by
  obtain ⟨b,left,head,mark,notClose,_⟩ := raw_head sound
  cases rest with
  | nil => exact ⟨b,left,head,mark,notClose⟩
  | cons next rest => exact ⟨b,_,by rw [rawItems,head]; rfl,mark,notClose⟩

theorem rawMembers_head (key : List UInt8) (v : Value) (rest : Members) : ∃ left, rawMembers (.cons key v rest) = quote :: left := by
  cases rest with
  | nil => exact ⟨_,rfl⟩
  | cons key' w rest => exact ⟨_,rfl⟩

theorem ends_cons {b : UInt8} {rest : List UInt8} (stops : numberChar b = false) : Ends (b :: rest) := by
  intro c first
  obtain rfl := Option.some.inj first
  exact stops

theorem value_quote (n : Nat) (rest : List UInt8) :
    value (n + 1) (quote :: rest) = (string n rest).map fun (content,left) => (.string content,left) := by
  rw [value,skipBlanks_cons (by decide)]
  rfl

theorem value_array (n : Nat) (rest : List UInt8) :
    value (n + 1) (openArray :: rest) = match expect closeArray rest with
      | some left => some (.array .nil,left)
      | none => (items n rest).map fun (items,left) => (.array items,left) := by
  rw [value,skipBlanks_cons (by decide)]
  rfl

theorem value_object (n : Nat) (rest : List UInt8) :
    value (n + 1) (openObject :: rest) = match expect closeObject rest with
      | some left => some (.object .nil,left)
      | none => (members n rest).map fun (members,left) => (.object members,left) := by
  rw [value,skipBlanks_cons (by decide)]
  rfl

theorem value_true (n : Nat) (rest : List UInt8) : value (n + 1) (wordTrue ++ rest) = some (.bool true,rest) := by
  rw [wordTrue,List.cons_append,value,skipBlanks_cons (by decide)]
  exact literal_raw wordTrue rest (.bool true)

theorem value_false (n : Nat) (rest : List UInt8) : value (n + 1) (wordFalse ++ rest) = some (.bool false,rest) := by
  rw [wordFalse,List.cons_append,value,skipBlanks_cons (by decide)]
  exact literal_raw wordFalse rest (.bool false)

theorem value_null (n : Nat) (rest : List UInt8) : value (n + 1) (wordNull ++ rest) = some (.null,rest) := by
  rw [wordNull,List.cons_append,value,skipBlanks_cons (by decide)]
  exact literal_raw wordNull rest .null

theorem value_number (n : Nat) {token rest : List UInt8} (valid : validNumber token = true) (ends : Ends rest) :
    value (n + 1) (token ++ rest) = some (.number token,rest) := by
  have read := number_raw valid ends
  cases token with
  | nil => cases valid
  | cons b token =>
    have char := validNumber_head valid
    have other : ∀ {c : UInt8}, numberChar c = false → b ≠ c := by
      rintro c notChar rfl
      rw [char] at notChar
      cases notChar
    have mark : isBlank b = false := by
      simp only [isBlank,Bool.or_eq_false_iff,beq_eq_false_iff_ne]
      exact ⟨⟨⟨other rfl,other rfl⟩,other rfl⟩,other rfl⟩
    rw [List.cons_append] at read ⊢
    rw [value,skipBlanks_cons mark]
    dsimp only
    rw [if_neg (other rfl),if_neg (other rfl),if_neg (other rfl),if_neg (other rfl),if_neg (other rfl),if_neg (other rfl)]
    exact read

/-- What follows a member up to the end of its object. -/
def Follows (n : Nat) (src : List UInt8) (ms : Members) (left : List UInt8) : Prop :=
  (expect closeObject src = some left ∧ ms = .nil) ∨
    expect closeObject src = none ∧ ∃ rest, expect comma src = some rest ∧ members n rest = some (ms,left)

theorem members_cons {n : Nat} {key rest left : List UInt8} {k : List UInt8} {v : Value} {ms : Members}
    (read : members (n + 1) (quoted key ++ colon :: rest) = some (.cons k v ms,left)) :
    ∃ content rest' src, string n (key ++ quote :: colon :: rest) = some (k,content) ∧ expect colon content = some rest' ∧
      value n rest' = some (v,src) ∧ Follows n src ms left := by
  rw [members,quoted,List.cons_append,List.append_assoc,expect_cons (by decide),if_pos rfl,Option.bind_some] at read
  obtain ⟨⟨k',content⟩,named,read⟩ := Option.bind_eq_some_iff.mp read
  obtain ⟨rest',separated,read⟩ := Option.bind_eq_some_iff.mp read
  obtain ⟨⟨v',src⟩,valued,read⟩ := Option.bind_eq_some_iff.mp read
  dsimp only at read
  split at read
  · rename_i closes
    cases read
    exact ⟨content,rest',src,named,separated,valued,.inl ⟨closes,rfl⟩⟩
  · rename_i more
    obtain ⟨rest'',comma,read⟩ := Option.bind_eq_some_iff.mp read
    obtain ⟨⟨others,left'⟩,later,same⟩ := Option.map_eq_some_iff.mp read
    cases same
    exact ⟨content,rest',src,named,separated,valued,.inr ⟨more,rest'',comma,later⟩⟩

mutual

theorem value_raw : ∀ j : Value, Sound j → ∀ n rest, (raw j).length ≤ n → Ends rest → value n (raw j ++ rest) = some (j,rest)
  | j,sound,0,rest,enough,_ => by
    obtain ⟨b,left,head,_⟩ := raw_head sound
    rw [head] at enough
    exact absurd enough (Nat.not_succ_le_zero _)
  | .null,_,n + 1,rest,_,_ => value_null n rest
  | .bool false,_,n + 1,rest,_,_ => value_false n rest
  | .bool true,_,n + 1,rest,_,_ => value_true n rest
  | .number token,sound,n + 1,rest,_,ends => value_number n sound ends
  | .string content,sound,n + 1,rest,enough,_ => by
    rw [raw,quoted,List.length_cons,List.length_append,List.length_singleton] at enough
    rw [raw,quoted,List.cons_append,List.append_assoc,List.singleton_append,value_quote,string_plain sound (by omega)]
    rfl
  | .array .nil,_,n + 1,rest,_,_ => by
    rw [raw,rawItems,List.cons_append,List.nil_append,List.singleton_append,value_array,expect_cons (by decide),if_pos rfl]
  | .array (.cons item more),sound,n + 1,rest,enough,_ => by
    obtain ⟨b,left,head,mark,notClose⟩ := rawItems_head more sound.1
    rw [raw,List.length_cons,List.length_append,List.length_singleton] at enough
    have inner := items_raw (.cons item more) sound n rest (by omega) Items.noConfusion
    rw [raw,List.cons_append,List.append_assoc,List.singleton_append,value_array,inner,head,List.cons_append,
      expect_cons mark,if_neg notClose]
    rfl
  | .object .nil,_,n + 1,rest,_,_ => by
    rw [raw,rawMembers,List.cons_append,List.nil_append,List.singleton_append,value_object,expect_cons (by decide),if_pos rfl]
  | .object (.cons key v more),sound,n + 1,rest,enough,_ => by
    obtain ⟨left,head⟩ := rawMembers_head key v more
    rw [raw,List.length_cons,List.length_append,List.length_singleton] at enough
    have inner := members_raw (.cons key v more) sound n rest (by omega) Members.noConfusion
    rw [raw,List.cons_append,List.append_assoc,List.singleton_append,value_object,inner,head,List.cons_append,
      expect_cons (by decide),if_neg (by decide)]
    rfl

theorem items_raw : ∀ its : Items, SoundItems its → ∀ n rest, (rawItems its).length + 1 ≤ n → its ≠ .nil →
    items n (rawItems its ++ closeArray :: rest) = some (its,rest)
  | .nil,_,_,_,_,some_item => absurd rfl some_item
  | .cons _ _,_,0,_,enough,_ => absurd enough (Nat.not_succ_le_zero _)
  | .cons item .nil,sound,n + 1,rest,enough,_ => by
    have first := value_raw item sound.1 n (closeArray :: rest) (by rw [rawItems] at enough; omega) (ends_cons (by decide))
    rw [rawItems,items,first,Option.bind_some]
    dsimp only
    rw [expect_cons (by decide),if_pos rfl]
  | .cons item (.cons next more),sound,n + 1,rest,enough,_ => by
    rw [rawItems,List.length_append,List.length_cons] at enough
    have others := items_raw (.cons next more) sound.2 n rest (by omega) Items.noConfusion
    have first := value_raw item sound.1 n (comma :: (rawItems (.cons next more) ++ closeArray :: rest)) (by omega)
      (ends_cons (by decide))
    rw [rawItems,List.append_assoc,List.cons_append,items,first,Option.bind_some]
    dsimp only
    rw [expect_cons (by decide),if_neg (by decide),expect_cons (by decide),if_pos rfl,Option.bind_some,others]
    rfl

theorem members_raw : ∀ ms : Members, SoundMembers ms → ∀ n rest, (rawMembers ms).length + 1 ≤ n → ms ≠ .nil →
    members n (rawMembers ms ++ closeObject :: rest) = some (ms,rest)
  | .nil,_,_,_,_,some_member => absurd rfl some_member
  | .cons _ _ _,_,0,_,enough,_ => absurd enough (Nat.not_succ_le_zero _)
  | .cons key v .nil,sound,n + 1,rest,enough,_ => by
    simp only [rawMembers,quoted,List.length_append,List.length_cons,List.length_nil] at enough
    have first := value_raw v sound.2.1 n (closeObject :: rest) (by omega) (ends_cons (by decide))
    simp only [rawMembers,quoted,List.cons_append,List.append_assoc,List.nil_append]
    rw [members,expect_cons (by decide),if_pos rfl,Option.bind_some,string_plain sound.1 (by omega),Option.bind_some]
    dsimp only
    rw [expect_cons (by decide),if_pos rfl,Option.bind_some,first,Option.bind_some]
    dsimp only
    rw [expect_cons (by decide),if_pos rfl]
  | .cons key v (.cons key' w more),sound,n + 1,rest,enough,_ => by
    simp only [rawMembers_more key v (.cons key' w more),moreMembers,quoted,List.length_append,
      List.length_cons,List.length_nil] at enough
    have others := members_raw (.cons key' w more) sound.2.2 n rest (by omega) Members.noConfusion
    have first := value_raw v sound.2.1 n (comma :: (rawMembers (.cons key' w more) ++ closeObject :: rest)) (by omega)
      (ends_cons (by decide))
    simp only [rawMembers_more key v (.cons key' w more),moreMembers,quoted,List.cons_append,List.append_assoc,
      List.nil_append]
    rw [members,expect_cons (by decide),if_pos rfl,Option.bind_some,string_plain sound.1 (by omega),Option.bind_some]
    dsimp only
    rw [expect_cons (by decide),if_pos rfl,Option.bind_some,first,Option.bind_some]
    dsimp only
    rw [expect_cons (by decide),if_neg (by decide),expect_cons (by decide),if_pos rfl,Option.bind_some,others]
    rfl

end

/-- A sound value is read back from its text. -/
theorem parse_raw {j : Value} (sound : Sound j) : parse (raw j) = some j := by
  have read := value_raw j sound (raw j).length [] (Nat.le_refl _) nofun
  rw [List.append_nil] at read
  rw [parse,read]
  rfl

end Reading

section Following

theorem literal_value {word src left : List UInt8} {v j : Value} (read : literal word v src = some (j,left)) : j = v := by
  rw [literal] at read
  split_ifs at read
  cases read
  rfl

theorem value_number_token {n : Nat} {src token left : List UInt8} (read : value n src = some (.number token,left)) :
    validNumber token = true ∧ token ++ left = skipBlanks src := by
  cases n with
  | zero => cases read
  | succ n =>
    rw [value] at read
    split at read
    · cases read
    rename_i b rest skipped
    rw [skipped]
    split_ifs at read
    · obtain ⟨_,_,same⟩ := Option.map_eq_some_iff.mp read
      cases same
    · split at read
      · cases read
      · obtain ⟨_,_,same⟩ := Option.map_eq_some_iff.mp read
        cases same
    · split at read
      · cases read
      · obtain ⟨_,_,same⟩ := Option.map_eq_some_iff.mp read
        cases same
    iterate 3
      · cases literal_value read
    · rw [number] at read
      split_ifs at read with valid
      cases read
      exact ⟨valid,List.takeWhile_append_dropWhile⟩

/-- What follows an item up to the end of its array. -/
def ItemsFollow (n : Nat) (src : List UInt8) (its : Items) (left : List UInt8) : Prop :=
  (expect closeArray src = some left ∧ its = .nil) ∨
    expect closeArray src = none ∧ ∃ rest, expect comma src = some rest ∧ items n rest = some (its,left)

theorem items_cons {n : Nat} {src left : List UInt8} {its : Items} (read : items (n + 1) src = some (its,left)) :
    ∃ item rest more, its = .cons item more ∧ value n src = some (item,rest) ∧ ItemsFollow n rest more left := by
  rw [items] at read
  obtain ⟨⟨item,rest⟩,first,read⟩ := Option.bind_eq_some_iff.mp read
  dsimp only at read
  split at read
  · rename_i closes
    cases read
    exact ⟨item,rest,.nil,rfl,first,.inl ⟨closes,rfl⟩⟩
  · rename_i open_
    obtain ⟨rest',separated,read⟩ := Option.bind_eq_some_iff.mp read
    obtain ⟨⟨more,left'⟩,later,same⟩ := Option.map_eq_some_iff.mp read
    cases same
    exact ⟨item,rest,more,rfl,first,.inr ⟨open_,rest',separated,later⟩⟩

theorem itemsFollow_close {n : Nat} {rest left : List UInt8} {its : Items} (follow : ItemsFollow n (closeArray :: rest) its left) :
    left = rest := by
  rw [ItemsFollow,expect_cons (by decide),if_pos rfl] at follow
  rcases follow with ⟨same,_⟩ | ⟨absurdity,_⟩
  · exact (Option.some.inj same).symm
  · cases absurdity

theorem itemsFollow_comma {n : Nat} {rest left : List UInt8} {its : Items} (follow : ItemsFollow n (comma :: rest) its left) :
    items n rest = some (its,left) := by
  rw [ItemsFollow,expect_cons (by decide),if_neg (by decide),expect_cons (by decide),if_pos rfl] at follow
  rcases follow with ⟨absurdity,_⟩ | ⟨_,rest',same,read⟩
  · cases absurdity
  · cases same
    exact read

theorem follows_close {n : Nat} {rest left : List UInt8} {ms : Members} (follow : Follows n (closeObject :: rest) ms left) :
    left = rest ∧ ms = .nil := by
  rw [Follows,expect_cons (by decide),if_pos rfl] at follow
  rcases follow with ⟨same,ended⟩ | ⟨absurdity,_⟩
  · exact ⟨(Option.some.inj same).symm,ended⟩
  · cases absurdity

theorem follows_comma {n : Nat} {rest left : List UInt8} {ms : Members} (follow : Follows n (comma :: rest) ms left) :
    members n rest = some (ms,left) := by
  rw [Follows,expect_cons (by decide),if_neg (by decide),expect_cons (by decide),if_pos rfl] at follow
  rcases follow with ⟨absurdity,_⟩ | ⟨_,rest',same,read⟩
  · cases absurdity
  · cases same
    exact read

theorem members_ne_nil {n : Nat} {src left : List UInt8} : members n src ≠ some (.nil,left) := by
  cases n with
  | zero => nofun
  | succ n =>
    rw [members]
    intro read
    obtain ⟨_,_,read⟩ := Option.bind_eq_some_iff.mp read
    obtain ⟨_,_,read⟩ := Option.bind_eq_some_iff.mp read
    obtain ⟨_,_,read⟩ := Option.bind_eq_some_iff.mp read
    obtain ⟨_,_,read⟩ := Option.bind_eq_some_iff.mp read
    dsimp only at read
    split at read
    · cases read
    · obtain ⟨_,_,read⟩ := Option.bind_eq_some_iff.mp read
      obtain ⟨_,_,same⟩ := Option.map_eq_some_iff.mp read
      cases same

/-- A member read under its own key: the key is plain, and its value stands behind the colon. -/
theorem members_key {n : Nat} {key rest left : List UInt8} {v : Value} {ms : Members}
    (read : members (n + 1) (quoted key ++ colon :: rest) = some (.cons key v ms,left)) :
    Plain key ∧ ∃ src, value n rest = some (v,src) ∧ Follows n src ms left := by
  obtain ⟨content,rest',src,named,separated,valued,follow⟩ := members_cons read
  obtain ⟨plain,rfl⟩ := string_quoted named
  rw [expect_cons (by decide),if_pos rfl] at separated
  cases separated
  exact ⟨plain,src,valued,follow⟩

mutual

/-- Where reading the text of a value gives that value, it is sound and its whole text was read. -/
theorem value_follows : ∀ (j : Value) (n : Nat) (rest left : List UInt8), Ends rest → value n (raw j ++ rest) = some (j,left) →
    Sound j ∧ left = rest
  | _,0,_,_,_,read => by cases read
  | .null,n + 1,rest,left,_,read => by
    cases (value_null n rest).symm.trans read
    exact ⟨trivial,rfl⟩
  | .bool false,n + 1,rest,left,_,read => by
    cases (value_false n rest).symm.trans read
    exact ⟨trivial,rfl⟩
  | .bool true,n + 1,rest,left,_,read => by
    cases (value_true n rest).symm.trans read
    exact ⟨trivial,rfl⟩
  | .number token,n + 1,rest,left,ends,read => by
    obtain ⟨valid,_⟩ := value_number_token read
    cases (value_number n valid ends).symm.trans read
    exact ⟨valid,rfl⟩
  | .string content,n + 1,rest,left,_,read => by
    rw [raw,quoted,List.cons_append,List.append_assoc,List.singleton_append,value_quote] at read
    obtain ⟨⟨content',left'⟩,inside,same⟩ := Option.map_eq_some_iff.mp read
    cases same
    exact string_quoted inside
  | .array .nil,n + 1,rest,left,_,read => by
    rw [raw,rawItems,List.cons_append,List.nil_append,List.singleton_append,value_array,expect_cons (by decide),if_pos rfl] at read
    cases read
    exact ⟨trivial,rfl⟩
  | .array (.cons item more),n + 1,rest,left,_,read => by
    rw [raw,List.cons_append,List.append_assoc,List.singleton_append,value_array] at read
    split at read
    · cases read
    · obtain ⟨⟨its,left'⟩,inside,same⟩ := Option.map_eq_some_iff.mp read
      cases same
      exact items_follow (.cons item more) n rest left inside
  | .object .nil,n + 1,rest,left,_,read => by
    rw [raw,rawMembers,List.cons_append,List.nil_append,List.singleton_append,value_object,expect_cons (by decide),if_pos rfl] at read
    cases read
    exact ⟨trivial,rfl⟩
  | .object (.cons key v more),n + 1,rest,left,_,read => by
    rw [raw,List.cons_append,List.append_assoc,List.singleton_append,value_object] at read
    split at read
    · cases read
    · obtain ⟨⟨ms,left'⟩,inside,same⟩ := Option.map_eq_some_iff.mp read
      cases same
      exact members_follow (.cons key v more) n rest left inside

theorem items_follow : ∀ (its : Items) (n : Nat) (rest left : List UInt8),
    items n (rawItems its ++ closeArray :: rest) = some (its,left) → SoundItems its ∧ left = rest
  | _,0,_,_,read => by cases read
  | .nil,n + 1,rest,left,read => by
    obtain ⟨_,_,_,same,_⟩ := items_cons read
    cases same
  | .cons item .nil,n + 1,rest,left,read => by
    obtain ⟨_,src,_,same,first,follow⟩ := items_cons read
    cases same
    rw [rawItems] at first
    obtain ⟨sound,rfl⟩ := value_follows item n (closeArray :: rest) src (ends_cons (by decide)) first
    exact ⟨⟨sound,trivial⟩,itemsFollow_close follow⟩
  | .cons item (.cons next more),n + 1,rest,left,read => by
    obtain ⟨_,src,_,same,first,follow⟩ := items_cons read
    cases same
    rw [rawItems,List.append_assoc,List.cons_append] at first
    obtain ⟨sound,rfl⟩ := value_follows item n _ src (ends_cons (by decide)) first
    obtain ⟨others,ended⟩ := items_follow (.cons next more) n rest left (itemsFollow_comma follow)
    exact ⟨⟨sound,others⟩,ended⟩

theorem members_follow : ∀ (ms : Members) (n : Nat) (rest left : List UInt8),
    members n (rawMembers ms ++ closeObject :: rest) = some (ms,left) → SoundMembers ms ∧ left = rest
  | _,0,_,_,read => by cases read
  | .nil,n + 1,rest,left,read => absurd read members_ne_nil
  | .cons key v .nil,n + 1,rest,left,read => by
    rw [rawMembers,List.append_assoc,List.cons_append] at read
    obtain ⟨plain,src,first,follow⟩ := members_key read
    obtain ⟨sound,rfl⟩ := value_follows v n (closeObject :: rest) src (ends_cons (by decide)) first
    exact ⟨⟨plain,sound,trivial⟩,(follows_close follow).1⟩
  | .cons key v (.cons key' w more),n + 1,rest,left,read => by
    rw [rawMembers_more key v (.cons key' w more),moreMembers,List.append_assoc,List.append_assoc,
      List.cons_append] at read
    obtain ⟨plain,src,first,follow⟩ := members_key read
    obtain ⟨sound,rfl⟩ := value_follows v n _ src (ends_cons (by decide)) first
    obtain ⟨others,ended⟩ := members_follow (.cons key' w more) n rest left (follows_comma follow)
    exact ⟨⟨plain,sound,others⟩,ended⟩

end

end Following

end Json
