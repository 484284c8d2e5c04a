import XivelyClient.Mqtt.Parser
import XivelyClient.Mqtt.Wire

/-! The parser's blocks on whole fields. A string, and an optional one, is read in one go when it is all
there; otherwise the block stops. The one exception is an empty string with nothing behind it, at which
the block stops too. -/
namespace XivelyClient.Mqtt.ParserExecute
open Resumable Wire

/-- The descriptor that a reader fills with `s`, starting with four bytes of room. -/
def descOf (s : List UInt8) : DataDesc :=
  (((DataDesc.makeEmptyDescAlloc 4).appendDataResize true s).map Prod.snd).getD (.makeEmptyDescAlloc 4)

theorem append_descOf (s : List UInt8) (small : s.length ≤ 2 ^ 31) :
    (DataDesc.makeEmptyDescAlloc 4).appendDataResize true s = some (.ok,descOf s) := by
  obtain ⟨desc,appended,_⟩ := DataDesc.appendDataResize_some (.makeEmptyDescAlloc 4) s (by
    rw [DataDesc.length_makeEmptyDescAlloc]
    omega)
  rw [descOf,appended]
  rfl

theorem descOf_data (s : List UInt8) (small : s.length ≤ 2 ^ 31) : (descOf s).data = s := by
  have data := (DataDesc.appendDataResize_ok _ _ _ _ (append_descOf s small)).2
  simpa [DataDesc.makeEmptyDescAlloc] using data

theorem descOf_nil : descOf [] = .makeEmptyDescAlloc 4 := rfl

theorem append_large (s : List UInt8) (large : 2 ^ 31 < s.length) :
    (DataDesc.makeEmptyDescAlloc 4).appendDataResize true s = none := by
  apply DataDesc.appendDataResize_of_large
  · have four : (DataDesc.makeEmptyDescAlloc 4).capacity.toNat = 4 := rfl
    rw [four,DataDesc.length_makeEmptyDescAlloc]
    omega
  · rw [DataDesc.length_makeEmptyDescAlloc]
    omega

theorem subSize_of_le {a b : Nat} (order : b ≤ a) (word : a < 2 ^ 64) : subSize a b = a - b := by
  rw [subSize,show a + 2 ^ 64 - b = a - b + 2 ^ 64 by omega,Nat.add_mod_right,Nat.mod_eq_of_lt (by omega)]

section CopyLoop

variable {dst : Option DataDesc} (fresh : dstDesc dst = .makeEmptyDescAlloc 4)

include fresh

private theorem toRead_fresh {n : Nat} (word : n < 2 ^ 64) : subSize n (dstDesc dst).length = n := by
  rw [fresh,DataDesc.length_makeEmptyDescAlloc,subSize_of_le (Nat.zero_le n) word,Nat.sub_zero]

/-- Starting empty, the loop takes its bytes when the source has them. -/
theorem copyLoop_enough (regs : Registers) (again : ReadCs) (counted : Bool) (s rest : List UInt8)
    (length : regs.strLength = s.length) (small : s.length ≤ 2 ^ 31) :
    copyLoop again counted (regs,dst) (s ++ rest) =
      .done .ok (countCopied counted regs s.length,some (descOf s)) rest := by
  obtain ⟨n,hn⟩ : ∃ n, s.length = n := ⟨_,rfl⟩
  have toRead : subSize regs.strLength (dstDesc dst).length = n := by
    rw [length,hn]
    exact toRead_fresh fresh (by omega)
  simp only [copyLoop,toRead,hn]
  by_cases empty : n = 0
  · obtain rfl : s = [] := List.length_eq_zero_iff.mp (by omega)
    rw [if_pos empty,empty,fresh,descOf_nil]
    cases counted <;> rfl
  · have taken : (s ++ rest).take (min n (s ++ rest).length) = s := by
      rw [Nat.min_eq_left (by simp; omega),← hn,List.take_left]
    have dropped : (s ++ rest).drop (min n (s ++ rest).length) = rest := by
      rw [Nat.min_eq_left (by simp; omega),← hn,List.drop_left]
    have counts : min n (s ++ rest).length = n := Nat.min_eq_left (by simp; omega)
    rw [if_neg empty,taken,dropped,counts,fresh,append_descOf s small]
    simp only [Nat.sub_self,if_true]

/-- With too few bytes it stops, or overruns the buffer that cannot grow any more. -/
theorem copyLoop_short (regs : Registers) (again : ReadCs) (counted : Bool) (src : List UInt8)
    (word : regs.strLength < 2 ^ 64) (short : src.length < regs.strLength) :
    (∃ r, copyLoop again counted (regs,dst) src = .more again r) ∨
      (2 ^ 31 < src.length ∧ copyLoop again counted (regs,dst) src = .fault) := by
  obtain ⟨n,hn⟩ : ∃ n, regs.strLength = n := ⟨_,rfl⟩
  have toRead : subSize regs.strLength (dstDesc dst).length = n := by
    rw [hn]
    exact toRead_fresh fresh (by omega)
  rw [hn] at short
  simp only [copyLoop,toRead]
  rw [if_neg (by omega),Nat.min_eq_right short.le,List.take_length,fresh]
  rcases Nat.lt_or_ge (2 ^ 31) src.length with large | small
  · rw [append_large src large]
    exact .inr ⟨large,rfl⟩
  · rw [append_descOf src small]
    refine .inl ⟨(countCopied counted regs src.length,some (descOf src)),?_⟩
    simp only
    rw [if_neg (by omega)]

end CopyLoop

theorem be16_bytes (hi lo : UInt8) : be16 (hi.toNat * 256 + lo.toNat) = [hi,lo] := by
  have high := hi.toNat_lt
  have low := lo.toNat_lt
  simp only [be16,List.cons.injEq,and_true]
  refine ⟨UInt8.toNat_inj.mp ?_,UInt8.toNat_inj.mp ?_⟩ <;>
    rw [UInt8.toNat_ofNat'] <;> omega

section Text

/-- `read_string` from its start, past the two bytes of the length. -/
theorem readString_length (regs : Registers) (hi lo : UInt8) (src : List UInt8) :
    readString .start (regs,none) (hi :: lo :: src) =
      yieldOn .stringBody stringBody ({regs with
        strLength := hi.toNat * 256 + lo.toNat,dataLength := regs.dataLength + 2},
        some (.makeEmptyDescAlloc 4)) src := by
  have shift : hi.toNat <<< 8 = hi.toNat * 256 := by rw [Nat.shiftLeft_eq]
  simp only [readString,assign,yieldOn,stringHigh,stringLow,next,dstDesc,Option.getD_none,Option.getD_some,
    shift,Nat.add_assoc]

def stringRegs (regs : Registers) (s : List UInt8) : Registers :=
  {regs with strLength := s.length,dataLength := regs.dataLength + 2 + s.length}

theorem be16_value {n : Nat} (small : n < 65536) :
    (UInt8.ofNat (n / 256)).toNat * 256 + (UInt8.ofNat (n % 256)).toNat = n := by
  rw [UInt8.toNat_ofNat',UInt8.toNat_ofNat']
  omega

private theorem readString_body (regs : Registers) (s : Text) (src : List UInt8) :
    readString .start (regs,none) (be16 s.val.length ++ src) =
      yieldOn .stringBody stringBody ({regs with
        strLength := s.val.length,dataLength := regs.dataLength + 2},some (.makeEmptyDescAlloc 4)) src := by
  have length := readString_length regs (UInt8.ofNat (s.val.length / 256))
    (UInt8.ofNat (s.val.length % 256)) src
  rw [be16_value s.property] at length
  exact length

theorem readString_text (regs : Registers) (s : Text) (rest : List UInt8) (goes : s.val ≠ [] ∨ rest ≠ []) :
    readString .start (regs,none) (text s ++ rest) =
      .done .ok (stringRegs regs s.val,some (descOf s.val)) rest := by
  have small := s.property
  have left : s.val ++ rest ≠ [] := by
    rcases goes with h | h <;> simp [h]
  rw [text,List.append_assoc,readString_body,yieldOn_of_ne_nil left,stringBody,
    copyLoop_enough rfl _ _ _ s.val rest rfl (by omega)]
  rfl

theorem readString_empty (regs : Registers) (s : Text) (empty : s.val = []) :
    ∃ r, readString .start (regs,none) (text s) = .more .stringBody r := by
  have stops := readString_body regs s []
  rw [List.append_nil,yieldOn_nil] at stops
  rw [text,empty,List.append_nil]
  rw [empty] at stops
  exact ⟨_,stops⟩

/-- Bytes that begin with no whole string stop the reader. -/
theorem readString_short (regs : Registers) (src : List UInt8)
    (short : ¬ ∃ (s : Text) (rest : List UInt8), src = text s ++ rest) :
    ∃ d r, readString .start (regs,none) src = .more d r := by
  match src with
  | [] => exact ⟨_,_,rfl⟩
  | [hi] => exact ⟨_,_,rfl⟩
  | hi :: lo :: src =>
    have high := hi.toNat_lt
    have low := lo.toNat_lt
    obtain ⟨n,hn⟩ : ∃ n, hi.toNat * 256 + lo.toNat = n := ⟨_,rfl⟩
    have few : src.length < n := by
      by_contra enough
      apply short
      have length : (src.take n).length = n := List.length_take_of_le (by omega)
      refine ⟨⟨src.take n,by omega⟩,src.drop n,?_⟩
      simp only [text,length]
      rw [← hn,be16_bytes,List.append_assoc,List.take_append_drop]
      rfl
    rw [readString_length,hn]
    by_cases none_left : src = []
    · subst none_left
      exact ⟨_,_,rfl⟩
    · have fresh : dstDesc (some (.makeEmptyDescAlloc 4)) = .makeEmptyDescAlloc 4 := rfl
      have word : n < 2 ^ 64 := by omega
      rw [yieldOn_of_ne_nil none_left,stringBody]
      rcases copyLoop_short fresh
          {regs with strLength := n,dataLength := regs.dataLength + 2} .stringCopy true src word few with
        ⟨r,stops⟩ | ⟨large,_⟩
      · exact ⟨_,r,stops⟩
      · omega

end Text

/-- `k` reads a prefix of `src` into `m`, returns OK and leaves `rest`; it does not touch the header. -/
def Parses (k : Block Cs Frame UInt8 XiState) (f : Frame) (src rest : List UInt8) (m : Message) : Prop :=
  ∃ g, k f src = .done .ok g rest ∧ g.message = m ∧ g.regs.digitBytes = f.regs.digitBytes ∧
    g.regs.remainingLength = f.regs.remainingLength

/-- `k` gives no answer on `src`: it yields, or it leaves a buffer. -/
def Waits (k : Block Cs Frame UInt8 XiState) (f : Frame) (src : List UInt8) : Prop :=
  (∃ c g, k f src = .more c g) ∨ k f src = .fault

def afterText (f : Frame) (slot : Slot) (s : Text) : Frame :=
  ⟨.ok,.start,stringRegs f.regs s.val,slot.set f.message (some (descOf s.val))⟩

def afterOptional (f : Frame) (slot : Slot) : Option Text → Frame
  | none => f
  | some s => afterText f slot s

section Rules

variable {k : Block Cs Frame UInt8 XiState} {f : Frame} {src rest : List UInt8} {m : Message} {c : Cs}
  {slot : Slot}

theorem Parses.same {m' : Message} (parses : Parses k f src rest m) (same : m = m') : Parses k f src rest m' := same ▸ parses

theorem Parses.exit : Parses (exit .ok) f src src f.message := ⟨f,rfl,rfl,rfl,rfl⟩

theorem Parses.yieldOn (left : src ≠ []) (hk : Parses k f src rest m) : Parses (yieldOn c k) f src rest m := by
  rw [Parses,yieldOn_of_ne_nil left]
  exact hk

theorem Parses.assign {update : Frame → Frame} (keep : (update f).regs = f.regs)
    (hk : Parses k (update f) src rest m) : Parses (assign update k) f src rest m := by
  rw [Parses,keep] at hk
  exact hk

theorem Waits.assign {update : Frame → Frame} (hk : Waits k (update f) src) :
    Waits (assign update k) f src := hk

theorem Waits.nil : Waits (yieldOn c k) f [] := .inl ⟨c,f,rfl⟩

theorem Waits.yieldOn (hk : src ≠ [] → Waits k f src) : Waits (yieldOn c k) f src := by
  by_cases left : src = []
  · rw [left]
    exact .nil
  · rw [Waits,yieldOn_of_ne_nil left]
    exact hk left

theorem Parses.branch_true {p : Frame → Bool} {l : Block Cs Frame UInt8 XiState} (yes : p f = true)
    (hk : Parses k f src rest m) : Parses (branch p k l) f src rest m := by
  rw [Parses,branch_of_true yes]
  exact hk

theorem Parses.branch_false {p : Frame → Bool} {l : Block Cs Frame UInt8 XiState} (no : p f = false)
    (hk : Parses k f src rest m) : Parses (branch p l k) f src rest m := by
  rw [Parses,branch_of_false no]
  exact hk

theorem Waits.branch_true {p : Frame → Bool} {l : Block Cs Frame UInt8 XiState} (yes : p f = true)
    (hk : Waits k f src) : Waits (branch p k l) f src := by
  rw [Waits,branch_of_true yes]
  exact hk

theorem Waits.branch_false {p : Frame → Bool} {l : Block Cs Frame UInt8 XiState} (no : p f = false)
    (hk : Waits k f src) : Waits (branch p l k) f src := by
  rw [Waits,branch_of_false no]
  exact hk

/-- The frame behind a byte that went into the message. -/
def afterByte (f : Frame) (update : Message → UInt8 → Message) (b : UInt8) : Frame := {f with
  message := update f.message b
  regs := {f.regs with dataLength := f.regs.dataLength + 1}}

theorem afterByte_message {update : Message → UInt8 → Message} {b : UInt8} :
    (afterByte f update b).message = update f.message b := rfl

theorem Parses.readByte {update : Message → UInt8 → Message} {b : UInt8}
    (hk : Parses k (afterByte f update b) src rest m) : Parses (readByte update k) f (b :: src) rest m := hk

theorem Waits.readByte {update : Message → UInt8 → Message} {b : UInt8}
    (hk : Waits k (afterByte f update b) src) : Waits (readByte update k) f (b :: src) := hk

theorem readInto_text (idle : f.readCs = .start) (absent : slot.get f.message = none) (s : Text)
    (goes : s.val ≠ [] ∨ src ≠ []) :
    readInto readString slot c k f (text s ++ src) = k (afterText f slot s) src := by
  have taken := readString_text f.regs s src goes
  simp only [readInto,Call.run,readCall,idle,absent,taken,Call.settle,if_true]
  rfl

theorem readInto_waits (idle : f.readCs = .start) (absent : slot.get f.message = none)
    (short : (∃ s : Text, s.val = [] ∧ src = text s) ∨
      ¬ ∃ (s : Text) (rest : List UInt8), src = text s ++ rest) :
    Waits (readInto readString slot c k) f src := by
  have stopped : ∃ d r, readString .start (f.regs,none) src = .more d r := by
    rcases short with ⟨s,empty,rfl⟩ | short
    · obtain ⟨r,h⟩ := readString_empty f.regs s empty
      exact ⟨_,r,h⟩
    · exact readString_short f.regs src short
  obtain ⟨d,r,h⟩ := stopped
  refine .inl ⟨c,(readCall readString slot).wait f d r,?_⟩
  simp only [readInto,Call.run,readCall,idle,absent,h,Call.settle]

theorem Parses.text (idle : f.readCs = .start) (absent : slot.get f.message = none) (s : Text)
    (goes : s.val ≠ [] ∨ src ≠ []) (hk : Parses k (afterText f slot s) src rest m) :
    Parses (readInto readString slot c k) f (text s ++ src) rest m := by
  rw [Parses,readInto_text idle absent s goes]
  exact hk

theorem Parses.optional {p : Frame → Bool} (idle : f.readCs = .start) (absent : slot.get f.message = none)
    (o : Option Text) (agrees : p f = o.isSome) (goes : ∀ s, o = some s → s.val ≠ [] ∨ src ≠ [])
    (hk : Parses k (afterOptional f slot o) src rest m) :
    Parses (branch p (readInto readString slot c k) k) f (optionalText o ++ src) rest m := by
  cases o with
  | none => exact .branch_false agrees hk
  | some s => exact .branch_true agrees (.text idle absent s (goes s rfl) hk)

/-- Where a string is read without waiting, the source begins with a whole one. -/
theorem text_of_not_waits (idle : f.readCs = .start) (absent : slot.get f.message = none)
    (goes : ¬ Waits (readInto readString slot c k) f src) :
    ∃ (s : Text) (rest : List UInt8), src = text s ++ rest ∧ (s.val ≠ [] ∨ rest ≠ []) ∧
      ¬ Waits k (afterText f slot s) rest := by
  by_cases whole : ∃ (s : Text) (rest : List UInt8), src = text s ++ rest
  · obtain ⟨s,rest,rfl⟩ := whole
    by_cases last : s.val = [] ∧ rest = []
    · obtain ⟨empty,rfl⟩ := last
      exact absurd (readInto_waits idle absent (.inl ⟨s,empty,List.append_nil _⟩)) goes
    · have left : s.val ≠ [] ∨ rest ≠ [] := by
        rw [← not_and_or]
        exact last
      rw [Waits,readInto_text idle absent s left] at goes
      exact ⟨s,rest,rfl,left,goes⟩
  · exact absurd (readInto_waits idle absent (.inr whole)) goes

theorem optional_of_not_waits {p : Frame → Bool} (idle : f.readCs = .start)
    (absent : slot.get f.message = none)
    (goes : ¬ Waits (branch p (readInto readString slot c k) k) f src) :
    ∃ (o : Option Text) (rest : List UInt8), src = optionalText o ++ rest ∧ o.isSome = p f ∧
      (∀ s, o = some s → s.val ≠ [] ∨ rest ≠ []) ∧ ¬ Waits k (afterOptional f slot o) rest := by
  cases present : p f with
  | false => exact ⟨none,src,rfl,rfl,by simp,fun waits => goes (.branch_false present waits)⟩
  | true =>
    obtain ⟨s,rest,split,left,next⟩ := text_of_not_waits idle absent
      (fun waits => goes (.branch_true present waits))
    refine ⟨some s,rest,split,rfl,?_,next⟩
    intro t found
    obtain rfl := Option.some.inj found
    exact left

theorem byte_of_not_waits {update : Message → UInt8 → Message}
    (goes : ¬ Waits (Resumable.yieldOn c (ParserExecute.readByte update k)) f src) :
    ∃ b rest, src = b :: rest ∧ ¬ Waits k (afterByte f update b) rest := by
  cases src with
  | nil => exact absurd .nil goes
  | cons b rest => exact ⟨b,rest,rfl,goes⟩

end Rules

theorem lowByte_toNat (b : UInt8) : (lowByte b).toNat = b.toNat := by
  have low := b.toNat_lt
  have mask : (0xFF : UInt16).toNat = 2 ^ 8 - 1 := rfl
  rw [lowByte,UInt16.toNat_and,mask,Nat.and_two_pow_sub_one_eq_mod,UInt8.toNat_toUInt16]
  omega

theorem highByte_toNat (b : UInt8) : (highByte b).toNat = b.toNat * 256 := by
  have low := b.toNat_lt
  have places : 2 ^ ((8 : UInt16).toNat % 16) = 256 := rfl
  rw [highByte,UInt16.toNat_shiftLeft,UInt8.toNat_toUInt16,Nat.shiftLeft_eq,places]
  omega

theorem lowByte_eq (b : UInt8) : lowByte b = b.toUInt16 := by
  apply UInt16.toNat_inj.mp
  rw [lowByte_toNat,UInt8.toNat_toUInt16]

theorem highByte_add_lowByte (v : UInt16) :
    highByte (UInt8.ofNat (v.toNat / 256)) + lowByte (UInt8.ofNat (v.toNat % 256)) = v := by
  have word := v.toNat_lt
  apply UInt16.toNat_inj.mp
  rw [UInt16.toNat_add,highByte_toNat,lowByte_toNat,UInt8.toNat_ofNat',UInt8.toNat_ofNat']
  omega

theorem word_bytes (v : UInt16) : ∃ hi lo, be16 v.toNat = [hi,lo] ∧ highByte hi + lowByte lo = v :=
  ⟨_,_,rfl,highByte_add_lowByte v⟩

theorem be16_word (hi lo : UInt8) : be16 (highByte hi + lowByte lo).toNat = [hi,lo] := by
  have high := hi.toNat_lt
  have low := lo.toNat_lt
  have value : (highByte hi + lowByte lo).toNat = hi.toNat * 256 + lo.toNat := by
    rw [UInt16.toNat_add,highByte_toNat,lowByte_toNat]
    omega
  rw [value,be16_bytes]

theorem optionalText_append_ne_nil (o : Option Text) (src : List UInt8) (h : o.isSome = true ∨ src ≠ []) :
    optionalText o ++ src ≠ [] := by
  cases o with
  | none => simpa [optionalText] using h
  | some s => simp [optionalText,text_ne_nil]

section Connect

def decodedConnect (c : ConnectBody) : Connect where
  protocolName := some (descOf c.protocolName.val)
  protocolVersion := c.protocolVersion
  flagsValue := c.flagsValue
  keepalive := c.keepalive
  clientId := some (descOf c.clientId.val)
  willTopic := c.willTopic.map (descOf ·.val)
  willMessage := c.willMessage.map (descOf ·.val)
  username := c.username.map (descOf ·.val)
  password := c.password.map (descOf ·.val)

private theorem connectPassword_parses (f : Frame) (idle : f.readCs = .start)
    (absent : f.message.connect.password = none) (password : Option Text)
    (agrees : f.message.connect.passwordFollows = password.isSome) (rest : List UInt8)
    (goes : ∀ s, password = some s → s.val ≠ [] ∨ rest ≠ []) :
    Parses connectPassword f (optionalText password ++ rest) rest
      {f.message with connect := {f.message.connect with password := password.map (descOf ·.val)}} := by
  refine .optional idle absent password agrees goes ?_
  cases password with
  | none =>
    rw [Option.map_none,← absent]
    exact .exit
  | some s => exact .exit

private theorem connectUsername_parses (f : Frame) (idle : f.readCs = .start)
    (noUsername : f.message.connect.username = none) (noPassword : f.message.connect.password = none)
    (username password : Option Text) (agrees : f.message.connect.usernameFollows = username.isSome)
    (agrees' : f.message.connect.passwordFollows = password.isSome) (rest : List UInt8)
    (goes : ∀ last, password.or username = some last → last.val ≠ [] ∨ rest ≠ []) :
    Parses connectUsername f (optionalText username ++ (optionalText password ++ rest)) rest
      {f.message with connect := {f.message.connect with
        username := username.map (descOf ·.val),password := password.map (descOf ·.val)}} := by
  have goesPassword : ∀ s, password = some s → s.val ≠ [] ∨ rest ≠ [] := by
    rintro s rfl
    exact goes s rfl
  refine .optional idle noUsername username agrees ?_ ?_
  · rintro s rfl
    cases password with
    | none => simpa [optionalText] using goes s rfl
    | some t => exact .inr (optionalText_append_ne_nil _ _ (.inl rfl))
  · cases username with
    | none =>
      have next := connectPassword_parses f idle noPassword password agrees' rest goesPassword
      rw [Option.map_none,← noUsername]
      exact next
    | some s =>
      exact connectPassword_parses (afterText f .username s) rfl noPassword password agrees' rest goesPassword

private theorem connectWillMessage_parses (f : Frame) (idle : f.readCs = .start)
    (noMessage : f.message.connect.willMessage = none) (noUsername : f.message.connect.username = none)
    (noPassword : f.message.connect.password = none) (willMessage username password : Option Text)
    (will : f.message.connect.will = willMessage.isSome)
    (follows : f.message.connect.usernameFollows = username.isSome)
    (follows' : f.message.connect.passwordFollows = password.isSome) (rest : List UInt8)
    (goes : ∀ last, password.or (username.or willMessage) = some last → last.val ≠ [] ∨ rest ≠ []) :
    Parses connectWillMessage f (optionalText willMessage ++ (optionalText username ++
        (optionalText password ++ rest))) rest
      {f.message with connect := {f.message.connect with
        willMessage := willMessage.map (descOf ·.val),username := username.map (descOf ·.val)
        password := password.map (descOf ·.val)}} := by
  have goesUsername : ∀ last, password.or username = some last → last.val ≠ [] ∨ rest ≠ [] := by
    intro last found
    exact goes last (by rw [← Option.or_assoc,found]; rfl)
  refine .optional idle noMessage willMessage will ?_ ?_
  · rintro s rfl
    cases username with
    | some t => exact .inr (optionalText_append_ne_nil _ _ (.inl rfl))
    | none =>
      cases password with
      | none => simpa [optionalText] using goes s rfl
      | some t => exact .inr (optionalText_append_ne_nil _ _ (.inr (optionalText_append_ne_nil _ _ (.inl rfl))))
  · cases willMessage with
    | none =>
      have next := connectUsername_parses f idle noUsername noPassword username password follows follows'
        rest goesUsername
      rw [Option.map_none,← noMessage]
      exact next
    | some s =>
      exact connectUsername_parses (afterText f .willMessage s) rfl noUsername noPassword username password
        follows follows' rest goesUsername

private theorem connectWillTopic_parses (f : Frame) (idle : f.readCs = .start)
    (noTopic : f.message.connect.willTopic = none) (noMessage : f.message.connect.willMessage = none)
    (noUsername : f.message.connect.username = none) (noPassword : f.message.connect.password = none)
    (willTopic willMessage username password : Option Text)
    (will : f.message.connect.will = willTopic.isSome) (will' : f.message.connect.will = willMessage.isSome)
    (follows : f.message.connect.usernameFollows = username.isSome)
    (follows' : f.message.connect.passwordFollows = password.isSome) (rest : List UInt8)
    (goes : ∀ last, password.or (username.or willMessage) = some last → last.val ≠ [] ∨ rest ≠ []) :
    Parses connectWillTopic f (optionalText willTopic ++ (optionalText willMessage ++
        (optionalText username ++ (optionalText password ++ rest)))) rest
      {f.message with connect := {f.message.connect with
        willTopic := willTopic.map (descOf ·.val),willMessage := willMessage.map (descOf ·.val)
        username := username.map (descOf ·.val),password := password.map (descOf ·.val)}} := by
  refine .optional idle noTopic willTopic will ?_ ?_
  · rintro s rfl
    exact .inr (optionalText_append_ne_nil _ _ (.inl (by rw [← will',will]; rfl)))
  · cases willTopic with
    | none =>
      have next := connectWillMessage_parses f idle noMessage noUsername noPassword willMessage username
        password will' follows follows' rest goes
      rw [Option.map_none,← noTopic]
      exact next
    | some s =>
      exact connectWillMessage_parses (afterText f .willTopic s) rfl noMessage noUsername noPassword
        willMessage username password will' follows follows' rest goes

/-- The body behind the keepalive interval. -/
private theorem connectClientId_parses (f : Frame) (idle : f.readCs = .start) (c : ConnectBody)
    (read : f.message.connect = {
      protocolName := some (descOf c.protocolName.val)
      protocolVersion := c.protocolVersion
      flagsValue := c.flagsValue
      keepalive := c.keepalive})
    (rest : List UInt8) (goes : c.lastText.val ≠ [] ∨ rest ≠ []) :
    Parses connectClientId f (text c.clientId ++ (optionalText c.willTopic ++ (optionalText c.willMessage ++
        (optionalText c.username ++ (optionalText c.password ++ rest))))) rest
      {f.message with connect := decodedConnect c} := by
  have goesOn : ∀ last, c.password.or (c.username.or c.willMessage) = some last →
      last.val ≠ [] ∨ rest ≠ [] := by
    intro last found
    have same : c.lastText = last := by
      rw [ConnectBody.lastText]
      cases hp : c.password <;> cases hu : c.username <;> cases hw : c.willMessage <;> simp_all
    rwa [same] at goes
  refine .text idle (congrArg Connect.clientId read) c.clientId ?_ ?_
  · by_cases more : c.willTopic.isSome = true ∨ c.username.isSome = true ∨ c.password.isSome = true
    · right
      rcases more with h | h | h
      · exact optionalText_append_ne_nil _ _ (.inl h)
      · exact optionalText_append_ne_nil _ _ (.inr (optionalText_append_ne_nil _ _ (.inr
          (optionalText_append_ne_nil _ _ (.inl h)))))
      · exact optionalText_append_ne_nil _ _ (.inr (optionalText_append_ne_nil _ _ (.inr
          (optionalText_append_ne_nil _ _ (.inr (optionalText_append_ne_nil _ _ (.inl h)))))))
    · simp only [Option.isSome_iff_ne_none,ne_eq,not_or,not_not] at more
      obtain ⟨noTopic,noUsername,noPassword⟩ := more
      have noMessage : c.willMessage = none := by
        rw [← Option.not_isSome_iff_eq_none,c.willMessageAgrees,← c.willTopicAgrees,noTopic]
        simp
      rw [ConnectBody.lastText,noPassword,noUsername,noMessage] at goes
      simpa [noTopic,noUsername,noPassword,noMessage,optionalText] using goes
  · have shown : (afterText f .clientId c.clientId).message.connect = {
        protocolName := some (descOf c.protocolName.val)
        protocolVersion := c.protocolVersion
        flagsValue := c.flagsValue
        keepalive := c.keepalive
        clientId := some (descOf c.clientId.val)} := by
      simp [afterText,Slot.clientId,read]
    have next := connectWillTopic_parses (afterText f .clientId c.clientId) rfl (by rw [shown]) (by rw [shown])
      (by rw [shown]) (by rw [shown]) c.willTopic c.willMessage c.username c.password
      (by rw [shown]; exact c.willTopicAgrees.symm) (by rw [shown]; exact c.willMessageAgrees.symm)
      (by rw [shown]; exact c.usernameAgrees.symm) (by rw [shown]; exact c.passwordAgrees.symm) rest goesOn
    rw [shown] at next
    exact next

theorem connect_parses (f : Frame) (idle : f.readCs = .start) (fresh : f.message.connect = {})
    (c : ConnectBody) (rest : List UInt8) (goes : c.lastText.val ≠ [] ∨ rest ≠ []) :
    Parses connectProtocolName f (c.encode ++ rest) rest {f.message with connect := decodedConnect c} := by
  have split : c.encode ++ rest = text c.protocolName ++ (c.protocolVersion :: c.flagsValue ::
      UInt8.ofNat (c.keepalive.toNat / 256) :: UInt8.ofNat (c.keepalive.toNat % 256) ::
      (text c.clientId ++ (optionalText c.willTopic ++ (optionalText c.willMessage ++
        (optionalText c.username ++ (optionalText c.password ++ rest)))))) := by
    simp [ConnectBody.encode,ConnectBody.fixed,be16]
  have keepalive := highByte_add_lowByte c.keepalive
  rw [lowByte_eq] at keepalive
  rw [split]
  refine .text idle (congrArg Connect.protocolName fresh) c.protocolName (.inr (by simp)) (.yieldOn (by simp)
    (.readByte (.yieldOn (by simp) (.readByte (.yieldOn (by simp) (.readByte (.yieldOn (by simp)
      (.readByte ?_))))))))
  refine connectClientId_parses _ rfl c ?_ rest goes
  simp [afterByte,afterText,Slot.protocolName,fresh,keepalive]

private theorem connectPassword_whole (f : Frame) (idle : f.readCs = .start)
    (absent : f.message.connect.password = none) (src : List UInt8) (goes : ¬ Waits connectPassword f src) :
    ∃ (password : Option Text) (rest : List UInt8), src = optionalText password ++ rest ∧
      password.isSome = f.message.connect.passwordFollows ∧
      ∀ last, password = some last → last.val ≠ [] ∨ rest ≠ [] := by
  obtain ⟨password,rest,split,agrees,left,_⟩ := optional_of_not_waits idle absent goes
  exact ⟨password,rest,split,agrees,left⟩

private theorem connectUsername_whole (f : Frame) (idle : f.readCs = .start)
    (noUsername : f.message.connect.username = none) (noPassword : f.message.connect.password = none)
    (src : List UInt8) (goes : ¬ Waits connectUsername f src) :
    ∃ (username password : Option Text) (rest : List UInt8),
      src = optionalText username ++ (optionalText password ++ rest) ∧
      username.isSome = f.message.connect.usernameFollows ∧
      password.isSome = f.message.connect.passwordFollows ∧
      ∀ last, password.or username = some last → last.val ≠ [] ∨ rest ≠ [] := by
  obtain ⟨username,left,rfl,agrees,usernameGoes,next⟩ := optional_of_not_waits idle noUsername goes
  have behind : ∃ (password : Option Text) (rest : List UInt8), left = optionalText password ++ rest ∧
      password.isSome = f.message.connect.passwordFollows ∧
      ∀ last, password = some last → last.val ≠ [] ∨ rest ≠ [] := by
    cases username with
    | none => exact connectPassword_whole f idle noPassword left next
    | some s => exact connectPassword_whole (afterText f .username s) rfl noPassword left next
  obtain ⟨password,rest,rfl,agrees',passwordGoes⟩ := behind
  refine ⟨username,password,rest,rfl,agrees,agrees',?_⟩
  intro last found
  cases password with
  | none => exact usernameGoes last found
  | some t => exact passwordGoes last found

private theorem connectWillMessage_whole (f : Frame) (idle : f.readCs = .start)
    (noMessage : f.message.connect.willMessage = none) (noUsername : f.message.connect.username = none)
    (noPassword : f.message.connect.password = none) (src : List UInt8)
    (goes : ¬ Waits connectWillMessage f src) :
    ∃ (willMessage username password : Option Text) (rest : List UInt8),
      src = optionalText willMessage ++ (optionalText username ++ (optionalText password ++ rest)) ∧
      willMessage.isSome = f.message.connect.will ∧
      username.isSome = f.message.connect.usernameFollows ∧
      password.isSome = f.message.connect.passwordFollows ∧
      ∀ last, password.or (username.or willMessage) = some last → last.val ≠ [] ∨ rest ≠ [] := by
  obtain ⟨willMessage,left,rfl,agrees,messageGoes,next⟩ := optional_of_not_waits idle noMessage goes
  have behind : ∃ (username password : Option Text) (rest : List UInt8),
      left = optionalText username ++ (optionalText password ++ rest) ∧
      username.isSome = f.message.connect.usernameFollows ∧
      password.isSome = f.message.connect.passwordFollows ∧
      ∀ last, password.or username = some last → last.val ≠ [] ∨ rest ≠ [] := by
    cases willMessage with
    | none => exact connectUsername_whole f idle noUsername noPassword left next
    | some s => exact connectUsername_whole (afterText f .willMessage s) rfl noUsername noPassword left next
  obtain ⟨username,password,rest,rfl,agrees',agrees'',goesOn⟩ := behind
  refine ⟨willMessage,username,password,rest,rfl,agrees,agrees',agrees'',?_⟩
  intro last found
  cases hp : password with
  | some t => exact goesOn last (by simpa [hp] using found)
  | none =>
    cases hu : username with
    | some t => exact goesOn last (by simpa [hp,hu] using found)
    | none =>
      have only := messageGoes last (by simpa [hp,hu] using found)
      simpa [hp,hu,optionalText] using only

private theorem connectWillTopic_whole (f : Frame) (idle : f.readCs = .start)
    (noTopic : f.message.connect.willTopic = none) (noMessage : f.message.connect.willMessage = none)
    (noUsername : f.message.connect.username = none) (noPassword : f.message.connect.password = none)
    (src : List UInt8) (goes : ¬ Waits connectWillTopic f src) :
    ∃ (willTopic willMessage username password : Option Text) (rest : List UInt8),
      src = optionalText willTopic ++ (optionalText willMessage ++ (optionalText username ++
        (optionalText password ++ rest))) ∧
      willTopic.isSome = f.message.connect.will ∧
      willMessage.isSome = f.message.connect.will ∧
      username.isSome = f.message.connect.usernameFollows ∧
      password.isSome = f.message.connect.passwordFollows ∧
      ∀ last, password.or (username.or willMessage) = some last → last.val ≠ [] ∨ rest ≠ [] := by
  obtain ⟨willTopic,left,rfl,agrees,_,next⟩ := optional_of_not_waits idle noTopic goes
  have behind : ∃ (willMessage username password : Option Text) (rest : List UInt8),
      left = optionalText willMessage ++ (optionalText username ++ (optionalText password ++ rest)) ∧
      willMessage.isSome = f.message.connect.will ∧
      username.isSome = f.message.connect.usernameFollows ∧
      password.isSome = f.message.connect.passwordFollows ∧
      ∀ last, password.or (username.or willMessage) = some last → last.val ≠ [] ∨ rest ≠ [] := by
    cases willTopic with
    | none => exact connectWillMessage_whole f idle noMessage noUsername noPassword left next
    | some s =>
      exact connectWillMessage_whole (afterText f .willTopic s) rfl noMessage noUsername noPassword left next
  obtain ⟨willMessage,username,password,rest,rfl,facts⟩ := behind
  exact ⟨willTopic,willMessage,username,password,rest,rfl,agrees,facts⟩

private theorem connectClientId_whole (f : Frame) (idle : f.readCs = .start) (protocolName : Text)
    (protocolVersion flagsValue : UInt8) (keepalive : UInt16)
    (read : f.message.connect = {
      protocolName := some (descOf protocolName.val)
      protocolVersion := protocolVersion
      flagsValue := flagsValue
      keepalive := keepalive})
    (src : List UInt8) (goes : ¬ Waits connectClientId f src) :
    ∃ (c : ConnectBody) (rest : List UInt8), c.fixed = text protocolName ++ [protocolVersion,flagsValue] ++
        be16 keepalive.toNat ∧ c.fixed ++ src = c.encode ++ rest ∧ (c.lastText.val ≠ [] ∨ rest ≠ []) := by
  obtain ⟨clientId,left,rfl,clientIdGoes,next⟩ := text_of_not_waits idle (congrArg Connect.clientId read) goes
  have shown : (afterText f .clientId clientId).message.connect = {
      protocolName := some (descOf protocolName.val)
      protocolVersion := protocolVersion
      flagsValue := flagsValue
      keepalive := keepalive
      clientId := some (descOf clientId.val)} := by
    simp [afterText,Slot.clientId,read]
  obtain ⟨willTopic,willMessage,username,password,rest,rfl,topicAgrees,messageAgrees,usernameAgrees,
    passwordAgrees,goesOn⟩ := connectWillTopic_whole (afterText f .clientId clientId) rfl
      (congrArg Connect.willTopic shown) (congrArg Connect.willMessage shown)
      (congrArg Connect.username shown) (congrArg Connect.password shown) left next
  rw [congrArg Connect.will shown] at topicAgrees messageAgrees
  rw [congrArg Connect.usernameFollows shown] at usernameAgrees
  rw [congrArg Connect.passwordFollows shown] at passwordAgrees
  refine ⟨⟨protocolName,protocolVersion,flagsValue,keepalive,clientId,willTopic,willMessage,username,password,
    topicAgrees,messageAgrees,usernameAgrees,passwordAgrees⟩,rest,rfl,?_,?_⟩
  · simp [ConnectBody.encode]
  · change (password.getD (username.getD (willMessage.getD clientId))).val ≠ [] ∨ rest ≠ []
    cases hp : password with
    | some t => exact goesOn t (by simp [hp])
    | none =>
      cases hu : username with
      | some t => exact goesOn t (by simp [hp,hu])
      | none =>
        cases hw : willMessage with
        | some t => exact goesOn t (by simp [hp,hu,hw])
        | none =>
          have noTopic : willTopic = none := by
            rw [hw,Option.isSome_none] at messageAgrees
            rw [← messageAgrees] at topicAgrees
            simpa using topicAgrees
          simpa [hp,hu,hw,noTopic,optionalText] using clientIdGoes

/-- Where the CONNECT branch does not wait, the source begins with a whole CONNECT body. -/
theorem connect_whole (f : Frame) (idle : f.readCs = .start) (fresh : f.message.connect = {})
    (src : List UInt8) (goes : ¬ Waits connectProtocolName f src) :
    ∃ (c : ConnectBody) (rest : List UInt8), src = c.encode ++ rest ∧
      (c.lastText.val ≠ [] ∨ rest ≠ []) := by
  obtain ⟨protocolName,_,rfl,_,goes₁⟩ := text_of_not_waits idle (congrArg Connect.protocolName fresh) goes
  obtain ⟨protocolVersion,_,rfl,goes₂⟩ := byte_of_not_waits goes₁
  obtain ⟨flagsValue,_,rfl,goes₃⟩ := byte_of_not_waits goes₂
  obtain ⟨keepaliveHigh,_,rfl,goes₄⟩ := byte_of_not_waits goes₃
  obtain ⟨keepaliveLow,left,rfl,goes₅⟩ := byte_of_not_waits goes₄
  obtain ⟨c,rest,fixed,split,last⟩ := connectClientId_whole _ rfl protocolName protocolVersion flagsValue
    (highByte keepaliveHigh + lowByte keepaliveLow)
    (by simp [afterByte,afterText,Slot.protocolName,fresh,lowByte_eq]) left goes₅
  refine ⟨c,rest,?_,last⟩
  rw [← split,fixed,be16_word]
  simp

end Connect

end XivelyClient.Mqtt.ParserExecute
