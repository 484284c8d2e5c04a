import XivelyClient.Mqtt.Layout

/-! The body of a packet, type by type. Bytes that begin with a body are read up to its end; a parser that
neither yields nor fails on some bytes has found a body at their start. -/
namespace XivelyClient.Mqtt.ParserExecute
open Resumable Wire

/-- The descriptor of a PUBLISH payload; there is none for an empty one. -/
def contentOf (payload : List UInt8) : Option DataDesc := if payload = [] then none else some (descOf payload)

section Publish

variable {f : Frame} {src rest payload : List UInt8}

/-- More bytes than a buffer can hold. -/
theorem copyLoop_large {dst : Option DataDesc} (fresh : dstDesc dst = .makeEmptyDescAlloc 4)
    (regs : Registers) (again : ReadCs) (counted : Bool) (word : regs.strLength < 2 ^ 64)
    (large : 2 ^ 31 < regs.strLength) (enough : regs.strLength ≤ src.length) :
    copyLoop again counted (regs,dst) src = .fault := by
  obtain ⟨n,hn⟩ : ∃ n, regs.strLength = n := ⟨_,rfl⟩
  have toRead : subSize regs.strLength (dstDesc dst).length = n := by
    rw [fresh,DataDesc.length_makeEmptyDescAlloc,hn,subSize_of_le (Nat.zero_le n) (by omega),Nat.sub_zero]
  rw [hn] at large enough
  have length : (src.take n).length = n := List.length_take_of_le enough
  simp only [copyLoop,toRead]
  rw [if_neg (by omega),Nat.min_eq_left enough,fresh,append_large _ (by omega)]

theorem readData_start (regs : Registers) (left : src ≠ []) : readData .start (regs,none) src =
    copyLoop .dataCopy false (regs,some (.makeEmptyDescAlloc 4)) src := by
  simp only [readData,assign_apply,yieldOn_of_ne_nil left,dataBody,dstDesc,Option.getD_none]

/-- The frame in which `n` bytes of payload are read. -/
private def counted (f : Frame) (n : Nat) : Frame := {f with regs := {f.regs with strLength := n}}

private theorem publishContent_eq (f : Frame) (src : List UInt8) (n : Nat)
    (count : subSize (f.regs.remainingLength + 2) f.regs.dataLength = n) :
    publishContent f src = if 0 < n then
      readInto readData .content .publishContent (exit .ok) (counted f n) src
    else .done .ok (counted f n) src := by
  have assigned : publishContent f src = branch (fun f => 0 < f.regs.strLength)
      (readInto readData .content .publishContent (exit .ok)) (exit .ok) (counted f n) src := by
    subst count
    rw [publishContent,assign_apply]
    rfl
  by_cases some_left : 0 < n
  · rw [assigned,if_pos some_left]
    exact branch_of_true (decide_eq_true some_left)
  · rw [assigned,if_neg some_left]
    exact branch_of_false (decide_eq_false some_left)

private theorem publishContent_parses (idle : f.readCs = .start) (absent : f.message.publish.content = none)
    (counts : f.regs.remainingLength + 2 = f.regs.dataLength + payload.length)
    (bound : f.regs.remainingLength ≤ 268435455) :
    Parses publishContent f (payload ++ rest) rest
      {f.message with publish := {f.message.publish with content := contentOf payload}} := by
  have count : subSize (f.regs.remainingLength + 2) f.regs.dataLength = payload.length := by
    rw [subSize_of_le (by omega) (by omega)]
    omega
  rw [Parses,publishContent_eq f _ _ count]
  by_cases empty : payload = []
  · rw [empty,contentOf,if_pos rfl,← absent]
    exact ⟨_,rfl,rfl,rfl,rfl⟩
  · obtain ⟨n,hn⟩ : ∃ n, payload.length = n := ⟨_,rfl⟩
    have left : payload ++ rest ≠ [] := by simp [empty]
    have positive : 0 < n := by
      rw [← hn]
      exact List.length_pos_iff.mpr empty
    have taken : readData .start ((counted f n).regs,none) (payload ++ rest) =
        .done .ok ((counted f n).regs,some (descOf payload)) rest := by
      rw [readData_start _ left]
      exact copyLoop_enough rfl _ _ _ payload rest hn.symm (by omega)
    have absent' : Slot.content.get (counted f n).message = none := absent
    have idle' : (counted f n).readCs = .start := idle
    rw [hn,if_pos positive,contentOf,if_neg empty]
    simp only [readInto,Call.run,readCall,idle',absent',taken,Call.settle,if_true]
    exact ⟨_,rfl,rfl,rfl,rfl⟩

/-- The payload is never waited for in vain: it is there, or the parser waits. -/
private theorem publishContent_whole (idle : f.readCs = .start) (absent : f.message.publish.content = none)
    (small : f.regs.dataLength ≤ 2 ^ 17) (bound : f.regs.remainingLength ≤ 268435455)
    (goes : ¬ Waits publishContent f src) :
    ∃ payload rest, src = payload ++ rest ∧
      f.regs.remainingLength + 2 = f.regs.dataLength + payload.length := by
  obtain ⟨n,count⟩ : ∃ n, subSize (f.regs.remainingLength + 2) f.regs.dataLength = n := ⟨_,rfl⟩
  rw [Waits,publishContent_eq f src n count] at goes
  rw [subSize] at count
  have word : n < 2 ^ 64 := by omega
  rcases Nat.eq_zero_or_pos n with none_left | some_left
  · exact ⟨[],src,rfl,by rw [List.length_nil]; omega⟩
  · have idle' : (counted f n).readCs = .start := idle
    have absent' : Slot.content.get (counted f n).message = none := absent
    have fresh : dstDesc (some (.makeEmptyDescAlloc 4)) = .makeEmptyDescAlloc 4 := rfl
    rw [if_pos some_left] at goes
    simp only [readInto,Call.run,readCall,idle',absent'] at goes
    by_cases waiting : src = []
    · subst waiting
      exact absurd (.inl ⟨_,_,rfl⟩) goes
    rw [readData_start _ waiting] at goes
    rcases Nat.lt_or_ge src.length n with short | enough
    · rcases copyLoop_short fresh (counted f n).regs .dataCopy false src word short with
        ⟨r,stops⟩ | ⟨_,faults⟩
      · rw [stops] at goes
        exact absurd (.inl ⟨_,_,rfl⟩) goes
      · rw [faults] at goes
        exact absurd (.inr rfl) goes
    · rcases Nat.lt_or_ge (2 ^ 31) n with large | held
      · rw [copyLoop_large fresh (counted f n).regs .dataCopy false word large enough] at goes
        exact absurd (.inr rfl) goes
      · refine ⟨src.take n,src.drop n,(List.take_append_drop n src).symm,?_⟩
        rw [List.length_take_of_le enough]
        omega

def idBytes (id : Option UInt16) : List UInt8 := (id.map fun id => be16 id.toNat).getD []

/-- The frame behind a message id. -/
private def afterId (f : Frame) (hi lo : UInt8) : Frame := {f with
  message := {f.message with publish := {f.message.publish with messageId := highByte hi + lowByte lo}}
  regs := {f.regs with dataLength := f.regs.dataLength + 2}}

private theorem publishMessageId_parses (idle : f.readCs = .start) (absent : f.message.publish.content = none)
    (id : Option UInt16) (agrees : id.isSome = decide (0 < f.message.common.qos))
    (unset : f.message.publish.messageId = 0)
    (counts : f.regs.remainingLength + 2 = f.regs.dataLength + (idBytes id).length + payload.length)
    (bound : f.regs.remainingLength ≤ 268435455) :
    Parses publishMessageId f (idBytes id ++ (payload ++ rest)) rest {f.message with
      publish := {f.message.publish with messageId := id.getD 0,content := contentOf payload}} := by
  cases id with
  | none =>
    have content : Parses publishContent f (payload ++ rest) rest _ :=
      publishContent_parses idle absent (by simpa [idBytes] using counts) bound
    rw [Option.getD_none,← unset]
    exact .branch_false agrees.symm content
  | some id =>
    obtain ⟨hi,lo,bytes,rfl⟩ := word_bytes id
    rw [idBytes,Option.map_some,Option.getD_some,bytes] at counts ⊢
    have content : Parses publishContent (afterId f hi lo) (payload ++ rest) rest _ :=
      publishContent_parses idle absent counts bound
    exact .branch_true agrees.symm (.readByte (.yieldOn (by simp) (.readByte content)))

private theorem publishMessageId_whole (idle : f.readCs = .start) (absent : f.message.publish.content = none)
    (small : f.regs.dataLength ≤ 2 ^ 16 + 2 ^ 15) (bound : f.regs.remainingLength ≤ 268435455)
    (goes : ¬ Waits publishMessageId f src) :
    ∃ id payload rest, src = idBytes id ++ (payload ++ rest) ∧
      id.isSome = decide (0 < f.message.common.qos) ∧
      f.regs.remainingLength + 2 = f.regs.dataLength + (idBytes id).length + payload.length := by
  cases present : decide (0 < f.message.common.qos) with
  | false =>
    have next : ¬ Waits publishContent f src := fun waits => goes (.branch_false present waits)
    obtain ⟨payload,rest,split,counts⟩ := publishContent_whole idle absent (by omega) bound next
    exact ⟨none,payload,rest,by simpa [idBytes] using split,rfl,by simpa [idBytes] using counts⟩
  | true =>
    match src with
    | [] => exact absurd (.branch_true present (.inr rfl)) goes
    | [hi] => exact absurd (.branch_true present (.readByte .nil)) goes
    | hi :: lo :: src =>
      have next : ¬ Waits publishContent (afterId f hi lo) src := by
        intro waits
        exact goes (.branch_true present (.readByte (.yieldOn fun _ => .readByte waits)))
      have counted : (afterId f hi lo).regs.dataLength ≤ 2 ^ 17 := by
        simp only [afterId]
        omega
      obtain ⟨payload,rest,rfl,counts⟩ := publishContent_whole (f := afterId f hi lo) idle absent counted bound next
      have id : idBytes (some (highByte hi + lowByte lo)) = [hi,lo] := be16_word hi lo
      refine ⟨some (highByte hi + lowByte lo),payload,rest,by rw [id]; rfl,rfl,?_⟩
      rw [id]
      exact counts

theorem publish_encode (topic : Text) (id : Option UInt16) (payload rest : List UInt8) :
    (Body.publish topic id payload).encode ++ rest = text topic ++ (idBytes id ++ (payload ++ rest)) ∧
      (Body.publish topic id payload).encode.length =
        2 + topic.val.length + (idBytes id).length + payload.length := by
  simp [Body.encode,idBytes,text_length,Nat.add_assoc]

theorem publish_parses (idle : f.readCs = .start) (fresh : f.message.publish = {}) (topic : Text)
    (id : Option UInt16) (agrees : id.isSome = decide (0 < f.message.common.qos))
    (delimited : (Body.publish topic id payload).encode.length = f.regs.remainingLength)
    (begun : f.regs.dataLength = 2) (bound : f.regs.remainingLength ≤ 268435455)
    (goes : rest ≠ [] ∨ id ≠ none ∨ payload ≠ []) :
    Parses (packetBody .publish) f ((Body.publish topic id payload).encode ++ rest) rest
      {f.message with publish := ⟨some (descOf topic.val),id.getD 0,contentOf payload⟩} := by
  obtain ⟨split,length⟩ := publish_encode topic id payload rest
  have left : idBytes id ++ (payload ++ rest) ≠ [] := by
    rcases goes with h | h | h
    · simp [h]
    · obtain ⟨v,rfl⟩ := Option.ne_none_iff_exists'.mp h
      simp [idBytes,be16]
    · simp [h]
  have shown : (afterText f .topicName topic).message.publish = {topicName := some (descOf topic.val)} := by
    simp [afterText,Slot.topicName,fresh]
  have counts : (afterText f .topicName topic).regs.remainingLength + 2 =
      (afterText f .topicName topic).regs.dataLength + (idBytes id).length + payload.length := by
    simp only [afterText,stringRegs]
    omega
  have next : Parses publishMessageId (afterText f .topicName topic) (idBytes id ++ (payload ++ rest)) rest _ :=
    publishMessageId_parses rfl (congrArg Publish.content shown) id agrees (congrArg Publish.messageId shown)
      counts bound
  rw [shown] at next
  rw [split]
  exact .yieldOn (by simp [text_ne_nil]) (.text idle (congrArg Publish.topicName fresh) topic (.inr left)
    (.yieldOn left next))

theorem publish_whole (idle : f.readCs = .start) (fresh : f.message.publish = {})
    (begun : f.regs.dataLength = 2) (bound : f.regs.remainingLength ≤ 268435455)
    (goes : ¬ Waits (packetBody .publish) f src) :
    ∃ topic id payload rest, src = (Body.publish topic id payload).encode ++ rest ∧
      id.isSome = decide (0 < f.message.common.qos) ∧
      (Body.publish topic id payload).encode.length = f.regs.remainingLength ∧
      (rest ≠ [] ∨ id ≠ none ∨ payload ≠ []) := by
  have next : ¬ Waits publishTopicName f src := fun waits => goes (.yieldOn fun _ => waits)
  obtain ⟨topic,left,rfl,_,next⟩ := text_of_not_waits idle (congrArg Publish.topicName fresh) next
  by_cases empty : left = []
  · rw [empty] at next
    exact absurd .nil next
  have shown : (afterText f .topicName topic).message.publish = {topicName := some (descOf topic.val)} := by
    simp [afterText,Slot.topicName,fresh]
  have small : (afterText f .topicName topic).regs.dataLength ≤ 2 ^ 16 + 2 ^ 15 := by
    have := topic.property
    simp only [afterText,stringRegs]
    omega
  obtain ⟨id,payload,rest,rfl,agrees,counts⟩ := publishMessageId_whole (f := afterText f .topicName topic) rfl
    (congrArg Publish.content shown) small bound (fun waits => next (.yieldOn fun _ => waits))
  obtain ⟨split,length⟩ := publish_encode topic id payload rest
  simp only [afterText,stringRegs] at counts
  refine ⟨topic,id,payload,rest,split.symm,agrees,by omega,?_⟩
  by_contra nothing
  simp only [ne_eq,not_or,not_not] at nothing
  obtain ⟨rfl,rfl,rfl⟩ := nothing
  exact empty rfl

end Publish

section Small

variable {f : Frame} {src rest : List UInt8}

/-- The frame with a topic pair that nothing has been read into. -/
private def afterTopics (f : Frame) : Frame :=
  {f with message := {f.message with subscribe := {f.message.subscribe with topics := some {}}}}

private theorem subscribeTopics_parses (idle : f.readCs = .start) (name : Text) (qos : UInt8) :
    Parses subscribeTopics f (text name ++ (qos :: rest)) rest {f.message with
      subscribe := {f.message.subscribe with topics := some ⟨some (descOf name.val),qos⟩}} := by
  have pair : Parses subscribeQos (afterText (afterTopics f) .subscribeName name) (qos :: rest) rest
      {f.message with subscribe := {f.message.subscribe with topics := some ⟨some (descOf name.val),qos⟩}} :=
    .readByte .exit
  have left : qos :: rest ≠ [] := by simp
  have whole := Parses.text (f := afterTopics f) (c := .subscribeName) idle rfl name (.inr left)
    (.yieldOn (c := .subscribeQos) left pair)
  exact .assign rfl whole

private theorem subscribeTopics_whole (idle : f.readCs = .start) (goes : ¬ Waits subscribeTopics f src) :
    ∃ name qos rest, src = text name ++ (qos :: rest) := by
  have next : ¬ Waits (readInto readString .subscribeName .subscribeName (yieldOn .subscribeQos subscribeQos))
    (afterTopics f) src := fun waits => goes (.assign waits)
  obtain ⟨name,left,rfl,_,next⟩ := text_of_not_waits (f := afterTopics f) idle rfl next
  obtain ⟨qos,rest,rfl,_⟩ := byte_of_not_waits next
  exact ⟨name,qos,rest,rfl⟩

theorem subscribe_parses (idle : f.readCs = .start) (id : UInt16) (name : Text) (qos : UInt8) :
    Parses (packetBody .subscribe) f ((Body.subscribe id name qos).encode ++ rest) rest
      {f.message with subscribe := ⟨id,some ⟨some (descOf name.val),qos⟩⟩} := by
  obtain ⟨hi,lo,bytes,word⟩ := word_bytes id
  have split : (Body.subscribe id name qos).encode ++ rest = hi :: lo :: (text name ++ (qos :: rest)) := by
    simp [Body.encode,bytes]
  rw [split,← word]
  refine Parses.same (.yieldOn (by simp) (.readByte (.yieldOn (by simp) (.readByte (.yieldOn (by simp)
    (subscribeTopics_parses ?_ name qos)))))) ?_
  · exact idle
  · rw [afterByte_message,afterByte_message]

theorem subscribe_whole (idle : f.readCs = .start) (goes : ¬ Waits (packetBody .subscribe) f src) :
    ∃ id name qos rest, src = (Body.subscribe id name qos).encode ++ rest := by
  obtain ⟨hi,_,rfl,goes₁⟩ := byte_of_not_waits goes
  obtain ⟨lo,left,rfl,goes₂⟩ := byte_of_not_waits goes₁
  obtain ⟨name,qos,rest,rfl⟩ := subscribeTopics_whole (by exact idle) (fun waits => goes₂ (.yieldOn fun _ => waits))
  refine ⟨highByte hi + lowByte lo,name,qos,rest,?_⟩
  rw [Body.encode,be16_word]
  simp

private theorem subackStatus_parses (status : UInt8) (accepted : ∀ id, (Body.suback id status).Accepted) :
    Parses subackStatus f (status :: rest) rest {f.message with
      suback := {f.message.suback with topics := some {payload := status}}} := by
  have answered : parseSubackResponse 0 status = (.ok,status) := if_pos (accepted 0)
  rw [Parses,subackStatus,assign_apply]
  simp only [check,answered]
  exact ⟨_,rfl,rfl,rfl,rfl⟩

theorem suback_parses (id : UInt16) (status : UInt8) (accepted : (Body.suback id status).Accepted) :
    Parses (packetBody .suback) f ((Body.suback id status).encode ++ rest) rest
      {f.message with suback := ⟨id,some {payload := status}⟩} := by
  obtain ⟨hi,lo,bytes,word⟩ := word_bytes id
  rw [Body.encode,bytes,← word]
  refine Parses.same (.yieldOn (by simp) (.readByte (.yieldOn (by simp) (.readByte (.yieldOn (by simp)
    (subackStatus_parses status fun _ => accepted)))))) ?_
  rw [afterByte_message,afterByte_message]

/-- A status that is none of the four leaves its byte unread. -/
private theorem subackStatus_refused (status : UInt8) (refused : ∀ id, ¬ (Body.suback id status).Accepted) :
    ∃ g, subackStatus f (status :: rest) = .done .mqttParserError g (status :: rest) := by
  have answered : parseSubackResponse 0 status = (.mqttParserError,0) := if_neg (refused 0)
  rw [subackStatus,assign_apply]
  simp only [check,answered]
  exact ⟨_,rfl⟩

theorem suback_refused (id : UInt16) (status : UInt8) (refused : ¬ (Body.suback id status).Accepted) :
    ∃ g, packetBody .suback f ((Body.suback id status).encode ++ rest) =
      .done .mqttParserError g (status :: rest) := by
  obtain ⟨hi,lo,bytes,_⟩ := word_bytes id
  rw [Body.encode,bytes]
  exact subackStatus_refused status fun _ => refused

theorem reply_parses (update : Message → (Reply → Reply) → Message) (high low : Cs) (hi lo : UInt8) :
    Parses (yieldOn high (replyHigh update low)) f (hi :: lo :: rest) rest
      (update (update f.message fun r => {r with messageId := highByte hi})
        fun r => {r with messageId := r.messageId + lowByte lo}) :=
  .yieldOn (by simp) (.readByte (.yieldOn (by simp) (.readByte .exit)))

/-- Where two bytes in front of `k` are read without waiting, they are there. -/
theorem word_of_not_waits {c d : Cs} {high low : Message → UInt8 → Message} {k : Block Cs Frame UInt8 XiState}
    (goes : ¬ Waits (yieldOn c (readByte high (yieldOn d (readByte low k)))) f src) :
    ∃ (id : UInt16) (rest : List UInt8) (g : Frame), src = be16 id.toNat ++ rest ∧ ¬ Waits k g rest := by
  obtain ⟨hi,_,rfl,goes₁⟩ := byte_of_not_waits goes
  obtain ⟨lo,rest,rfl,goes₂⟩ := byte_of_not_waits goes₁
  exact ⟨highByte hi + lowByte lo,rest,_,by rw [be16_word]; rfl,goes₂⟩

theorem suback_whole (goes : ¬ Waits (packetBody .suback) f src) :
    ∃ id status rest, src = (Body.suback id status).encode ++ rest := by
  obtain ⟨id,left,g,rfl,next⟩ := word_of_not_waits goes
  cases left with
  | nil => exact absurd .nil next
  | cons status rest => exact ⟨id,status,rest,by simp [Body.encode]⟩

end Small

section Bodies

/-- What the parser makes of a body. -/
def decoded (common : Common) : Body → Message
  | .connect c => {common := common,connect := decodedConnect c}
  | .connack unused returnCode => {common := common,connack := ⟨unused,returnCode⟩}
  | .publish topic id payload =>
    {common := common,publish := ⟨some (descOf topic.val),id.getD 0,contentOf payload⟩}
  | .reply id =>
    match common.type with
    | .puback => {common := common,puback := ⟨id⟩}
    | .pubrec => {common := common,pubrec := ⟨id⟩}
    | .pubrel => {common := common,pubrel := ⟨id⟩}
    | _ => {common := common,pubcomp := ⟨id⟩}
  | .subscribe id name qos => {common := common,subscribe := ⟨id,some ⟨some (descOf name.val),qos⟩⟩}
  | .suback id status => {common := common,suback := ⟨id,some {payload := status}⟩}
  | .empty => {common := common}

/-- Bodies at whose last byte the parser knows that it is through. -/
def Prompt : Body → Prop
  | .connect c => c.lastText.val ≠ []
  | .publish _ id payload => id ≠ none ∨ payload ≠ []
  | _ => True

/-- The remaining length tells the payload of a PUBLISH from what comes next, and nothing else. -/
def Delimited (length : Nat) : Body → Prop
  | .publish topic id payload => (Body.publish topic id payload).encode.length = length
  | _ => True

/-- A body that the parser accepts behind a first byte and a remaining length. -/
structure Readable (common : Common) (length : Nat) (body : Body) : Prop where
  matching : body.Matches common
  accepted : body.Accepted
  delimited : Delimited length body

/-- Where the parser comes to the body of a packet. -/
structure AtBody (f : Frame) : Prop where
  idle : f.readCs = .start
  fresh : f.message = {common := f.message.common}
  begun : f.regs.dataLength = 2
  bound : f.regs.remainingLength ≤ 268435455

variable {f : Frame} {src rest : List UInt8}

theorem body_parses (h : AtBody f) (body : Body)
    (readable : Readable f.message.common f.regs.remainingLength body) (goes : rest ≠ [] ∨ Prompt body) :
    Parses (packetBody f.message.common.type) f (body.encode ++ rest) rest
      (decoded f.message.common body) := by
  obtain ⟨fits,accepted,delimited⟩ := readable
  obtain ⟨localState,readCs,regs,message⟩ := f
  obtain ⟨idle,fresh,begun,bound⟩ := h
  simp only at idle fresh begun bound fits delimited ⊢
  obtain ⟨common,hcommon⟩ : ∃ common, message.common = common := ⟨_,rfl⟩
  rw [hcommon] at fresh fits ⊢
  subst fresh
  cases body with
  | connect c =>
    have type : common.type = .connect := fits
    rw [type]
    refine connect_parses _ idle rfl c rest ?_
    rcases goes with h | h
    · exact .inr h
    · exact .inl h
  | connack unused returnCode =>
    have type : common.type = .connack := fits
    rw [type]
    exact .yieldOn (by simp [Body.encode]) (.readByte (.yieldOn (by simp) (.readByte .exit)))
  | publish topic id payload =>
    obtain ⟨type,agrees⟩ : common.type = .publish ∧ _ := fits
    rw [type]
    exact publish_parses idle rfl topic id agrees delimited begun bound goes
  | reply id =>
    obtain ⟨hi,lo,bytes,rfl⟩ := word_bytes id
    have split : (Body.reply (highByte hi + lowByte lo)).encode ++ rest = hi :: lo :: rest := by
      rw [Body.encode,bytes]
      rfl
    rw [split,decoded]
    rcases fits with type | type | type | type <;> simp only [type] <;> exact reply_parses _ _ _ hi lo
  | subscribe id name qos =>
    have type : common.type = .subscribe := fits
    rw [type]
    exact subscribe_parses idle id name qos
  | suback id status =>
    have type : common.type = .suback := fits
    rw [type]
    exact suback_parses id status accepted
  | empty =>
    rcases fits with type | type <;> rw [type] <;> exact .exit

/-- The bytes begin with a body that is refused for what it says. -/
def Refused (common : Common) (src : List UInt8) : Prop :=
  ∃ (body : Body) (rest : List UInt8), body.Matches common ∧ ¬ body.Accepted ∧ src = body.encode ++ rest

theorem packetBody_unsupported (type : MqttType) (bad : ¬ Supported type) : packetBody type = unsupported := by
  cases type with
  | none | unsubscribe | unsuback | pingreq | reserved => rfl
  | _ => exact absurd (by simp [Supported]) bad

/-- An unsupported type and a refused body are the parser's errors behind the fixed header. -/
theorem body_error (bad : ¬ Supported f.message.common.type ∨ Refused f.message.common src) :
    ∃ g rest, packetBody f.message.common.type f src = .done .mqttParserError g rest := by
  rcases bad with bad | ⟨body,rest,fits,refused,rfl⟩
  · rw [packetBody_unsupported _ bad]
    exact ⟨_,src,rfl⟩
  · cases body with
    | suback id status =>
      have type : f.message.common.type = .suback := fits
      obtain ⟨g,error⟩ := suback_refused (f := f) id status refused
      rw [type]
      exact ⟨g,status :: rest,error⟩
    | _ => exact absurd trivial refused

/-- Whatever the bytes are: the parser waits, answers one of its errors, or has a body in front of it. -/
theorem body_cases (h : AtBody f) (goes : ¬ Waits (packetBody f.message.common.type) f src)
    (supported : Supported f.message.common.type) (good : ¬ Refused f.message.common src) :
    ∃ (body : Body) (rest : List UInt8), src = body.encode ++ rest ∧
      Readable f.message.common f.regs.remainingLength body ∧ (rest ≠ [] ∨ Prompt body) := by
  obtain ⟨idle,fresh,begun,bound⟩ := h
  have reply {update : Message → (Reply → Reply) → Message} {high low : Cs}
      (matching : ∀ id, (Body.reply id).Matches f.message.common)
      (goes : ¬ Waits (yieldOn high (replyHigh update low)) f src) :
      ∃ (body : Body) (rest : List UInt8), src = body.encode ++ rest ∧
        Readable f.message.common f.regs.remainingLength body ∧ (rest ≠ [] ∨ Prompt body) := by
    obtain ⟨id,rest,_,split,_⟩ := word_of_not_waits goes
    exact ⟨.reply id,rest,split,⟨matching id,trivial,trivial⟩,.inr trivial⟩
  cases type : f.message.common.type with
  | connect =>
    rw [type] at goes
    obtain ⟨c,rest,split,left⟩ := connect_whole f idle (congrArg Message.connect fresh) src goes
    exact ⟨.connect c,rest,split,⟨type,trivial,trivial⟩,left.symm⟩
  | connack =>
    rw [type] at goes
    obtain ⟨unused,_,rfl,goes₁⟩ := byte_of_not_waits goes
    obtain ⟨returnCode,rest,rfl,_⟩ := byte_of_not_waits goes₁
    exact ⟨.connack unused returnCode,rest,rfl,⟨type,trivial,trivial⟩,.inr trivial⟩
  | publish =>
    rw [type] at goes
    obtain ⟨topic,id,payload,rest,split,agrees,delimited,left⟩ := publish_whole idle
      (congrArg Message.publish fresh) begun bound goes
    exact ⟨.publish topic id payload,rest,split,⟨⟨type,agrees⟩,trivial,delimited⟩,left⟩
  | puback =>
    rw [type] at goes
    exact reply (fun _ => .inl type) goes
  | pubrec =>
    rw [type] at goes
    exact reply (fun _ => .inr (.inl type)) goes
  | pubrel =>
    rw [type] at goes
    exact reply (fun _ => .inr (.inr (.inl type))) goes
  | pubcomp =>
    rw [type] at goes
    exact reply (fun _ => .inr (.inr (.inr type))) goes
  | subscribe =>
    rw [type] at goes
    obtain ⟨id,name,qos,rest,split⟩ := subscribe_whole idle goes
    exact ⟨.subscribe id name qos,rest,split,⟨type,trivial,trivial⟩,.inr trivial⟩
  | suback =>
    rw [type] at goes
    obtain ⟨id,status,rest,split⟩ := suback_whole goes
    refine ⟨.suback id status,rest,split,⟨type,?_,trivial⟩,.inr trivial⟩
    by_contra refused
    exact good ⟨.suback id status,rest,type,refused,split⟩
  | pingresp => exact ⟨.empty,src,rfl,⟨.inl type,trivial,trivial⟩,.inr trivial⟩
  | disconnect => exact ⟨.empty,src,rfl,⟨.inr type,trivial,trivial⟩,.inr trivial⟩
  | none | unsubscribe | unsuback | pingreq | reserved =>
    rw [type] at supported
    exact absurd supported (by simp [Supported])

/-- Where a body ends and what it says is determined by its bytes. The parser reads either of two
readings, once a byte stands behind them. -/
theorem body_unique {common : Common} {length : Nat} (bound : length ≤ 268435455) {body body' : Body}
    {rest rest' : List UInt8} (readable : Readable common length body) (readable' : Readable common length body')
    (same : body.encode ++ rest = body'.encode ++ rest') :
    rest = rest' ∧ decoded common body = decoded common body' := by
  obtain ⟨f,hf⟩ : ∃ f : Frame, f = ⟨.ok,.start,{remainingLength := length,dataLength := 2},{common := common}⟩ :=
    ⟨_,rfl⟩
  have atBody : AtBody f := by
    rw [hf]
    exact ⟨rfl,rfl,rfl,bound⟩
  have one : Readable f.message.common f.regs.remainingLength body := by rwa [hf]
  have two : Readable f.message.common f.regs.remainingLength body' := by rwa [hf]
  have parses : Parses _ f (body.encode ++ (rest ++ [0])) (rest ++ [0]) _ :=
    body_parses atBody body one (.inl (by simp))
  have parses' : Parses _ f (body'.encode ++ (rest' ++ [0])) (rest' ++ [0]) _ :=
    body_parses atBody body' two (.inl (by simp))
  obtain ⟨g,parsed,message,_⟩ := parses
  obtain ⟨g',parsed',message',_⟩ := parses'
  rw [← List.append_assoc,same,List.append_assoc,parsed'] at parsed
  simp only [Step.done.injEq,true_and,List.append_cancel_right_eq] at parsed
  obtain ⟨rfl,rfl⟩ := parsed
  refine ⟨rfl,?_⟩
  rw [message,hf] at message'
  exact message'

end Bodies

end XivelyClient.Mqtt.ParserExecute
