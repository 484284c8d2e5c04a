import XivelyClient.Mqtt.Agreement
import Mathlib.Algebra.Group.Action.Defs
import Mathlib.Algebra.Order.BigOperators.Group.List
import Mathlib.Data.List.Forall2

/-! The packets of messages with strings of any length. -/
namespace XivelyClient

theorem DataDesc.appendBytes_of_lt (out : DataDesc) (bytes : List UInt8) (small : bytes.length < 2 ^ 32)
    (tight : out.capacity.toNat < out.length + bytes.length) : out.appendBytes bytes = (.bufferOverflow,out) := by
  have length := out.length_lt
  have refused : out.willItFit bytes.length = false := by
    rw [← Bool.not_eq_true,willItFit_iff]
    omega
  rw [appendBytes,refused]
  rfl

theorem DataDesc.ofBytes_data (memoryType : MemoryType) {bytes : List UInt8} (small : bytes.length < 2 ^ 32) :
    (ofBytes memoryType bytes).data = bytes := by
  change bytes.take (UInt32.ofNat bytes.length).toNat = bytes
  rw [UInt32.toNat_ofNat',Nat.mod_eq_of_lt small,List.take_length]

namespace Mqtt
open Serialiser Wire

namespace Serialiser

/-- A writer that reports an error wherever `bytes` do not fit. -/
def Refuses (write : DataDesc → Except SerialiserFailure DataDesc) (bytes : List UInt8) : Prop :=
  ∀ out, out.capacity.toNat < out.length + bytes.length → write out = .error .error

theorem Refuses.pure : Refuses pure [] := fun out tight => absurd out.fits (Nat.not_le_of_lt tight)

theorem Refuses.bind {write next : DataDesc → Except SerialiserFailure DataDesc} {a b : List UInt8}
    (writes : Writes write a) (first : Refuses write a) (second : Refuses next b) :
    Refuses (fun out => write out >>= next) (a ++ b) := by
  intro out tight
  rw [List.length_append] at tight
  change write out >>= next = _
  rcases Nat.lt_or_ge out.capacity.toNat (out.length + a.length) with early | room
  · rw [first out early]
    rfl
  · obtain ⟨mid,written,data,capacity⟩ := writes out room
    have length : mid.length = out.length + a.length := by rw [DataDesc.length,data,List.length_append,DataDesc.length]
    rw [written]
    exact second mid (by rw [length,capacity]; omega)

theorem Refuses.ite {p : Prop} [Decidable p] {write : DataDesc → Except SerialiserFailure DataDesc} {bytes : List UInt8}
    (refuses : p → Refuses write bytes) : Refuses (fun out => if p then write out else .ok out) (if p then bytes else []) := by
  by_cases h : p
  · simpa only [h,if_true] using refuses h
  · simp only [h,if_false]
    exact .pure

theorem write8_refuses (byte : UInt8) : Refuses (write8 · byte) [byte] := by
  intro out tight
  have overflow := out.appendBytes_of_lt [byte] (by simp) tight
  simp only [write8,DataDesc.appendByte,overflow]

theorem write16_refuses (value : Nat) : Refuses (write16 · value) (be16 value) := by
  have high : value >>> 8 = value / 256 := by rw [Nat.shiftRight_eq_div_pow]
  have low : value &&& 0xFF = value % 256 := Nat.and_two_pow_sub_one_eq_mod value 8
  have bytes : be16 value = [UInt8.ofNat (value >>> 8)] ++ [UInt8.ofNat (value &&& 0xFF)] := by
    rw [high,low]
    rfl
  rw [bytes]
  exact .bind (write8_writes _) (write8_refuses _) (write8_refuses _)

theorem writeString_refuses (desc : Option DataDesc) : Refuses (writeString · desc) (stringBytes desc) := by
  cases desc with
  | none =>
    have zero := write16_refuses 0
    simpa [stringBytes,bytesOf,writeString] using zero
  | some str =>
    have copies : Refuses (copyString str) str.data := by
      intro out tight
      have overflow := out.appendBytes_of_lt str.data str.length_lt tight
      simp only [copyString,DataDesc.appendData,overflow]
    exact .bind (write16_writes str.length) (write16_refuses str.length) copies

theorem writeRemainingLength_refuses (n : Nat) : Refuses (writeRemainingLength · n) (Base128.encode n) := by
  induction n using Nat.strongRecOn with
  | ind n ih =>
    rcases Nat.lt_or_ge n 128 with small | large
    · have last := Refuses.bind (write8_writes (UInt8.ofNat n)) (write8_refuses (UInt8.ofNat n)) .pure
      rw [Base128.encode_of_lt small]
      simpa only [writeRemainingLength_of_lt _ small,List.append_nil] using last
    · have more := Refuses.bind (write8_writes (UInt8.ofNat (n % 128 + 128))) (write8_refuses (UInt8.ofNat (n % 128 + 128)))
        (ih (n / 128) (by omega))
      rw [Base128.encode_of_ge large]
      simp only [writeRemainingLength_of_ge _ large]
      exact more

theorem connect_refuses (connect : Connect) : Refuses (writeConnect · connect) (connectBytes connect) := by
  have optional (p : Bool) (desc : Option DataDesc) : Writes (fun out => if p = true then writeString out desc else pure out)
        (if p = true then stringBytes desc else []) ∧
      Refuses (fun out => if p = true then writeString out desc else pure out) (if p = true then stringBytes desc else []) :=
    ⟨.ite fun _ => writeString_writes desc,.ite fun _ => writeString_refuses desc⟩
  have byte (value : UInt8) : Writes (write8 · value) [value] ∧ Refuses (write8 · value) [value] :=
    ⟨write8_writes value,write8_refuses value⟩
  have string (desc : Option DataDesc) : Writes (writeString · desc) (stringBytes desc) ∧ Refuses (writeString · desc) (stringBytes desc) :=
    ⟨writeString_writes desc,writeString_refuses desc⟩
  have join {write next : DataDesc → Except SerialiserFailure DataDesc} {a b : List UInt8} (first : Writes write a ∧ Refuses write a)
      (second : Refuses next b) : Refuses (fun out => write out >>= next) (a ++ b) := .bind first.1 first.2 second
  have whole := join (string connect.protocolName) (join (byte connect.protocolVersion) (join (byte connect.flagsValue)
    (join ⟨write16_writes connect.keepalive.toNat,write16_refuses connect.keepalive.toNat⟩ (join (string connect.clientId)
      (join (optional connect.will connect.willTopic) (join (optional connect.will connect.willMessage)
        (join (optional connect.usernameFollows connect.username) (optional connect.passwordFollows connect.password).2)))))))
  intro out tight
  change writeConnect out connect = _
  rw [← whole out tight,writeConnect]
  cases connect.will <;> cases connect.usernameFollows <;> rfl

end Serialiser

/-- A part of a packet's body as MQTT has it. -/
inductive Part
  | raw (bytes : List UInt8)
  | text (str : List UInt8)
  deriving DecidableEq, Repr

namespace Part

/-- What the serialiser makes of the part. -/
def bytes : Part → List UInt8
  | .raw bytes => bytes
  | .text str => be16 str.length ++ str

/-- The bytes that stand for the part: before a string comes its length, in two bytes. -/
def StandsFor : Part → List UInt8 → Prop
  | .raw bytes,out => out = bytes
  | .text str,out => ∃ high low : UInt8, out = high :: low :: str ∧ high.toNat * 256 + low.toNat = str.length

def length : Part → Nat
  | .raw bytes => bytes.length
  | .text str => 2 + str.length

/-- A string has room for its length in the two bytes. -/
def Short : Part → Prop
  | .raw _ => True
  | .text str => str.length ≤ 65535

theorem length_bytes (part : Part) : part.bytes.length = part.length := by
  cases part with
  | raw bytes => rfl
  | text str => rw [bytes,List.length_append,be16_length,length]

theorem StandsFor.length {part : Part} {out : List UInt8} (stands : part.StandsFor out) : out.length = part.length := by
  cases part with
  | raw bytes => exact congrArg List.length stands
  | text str =>
    obtain ⟨high,low,rfl,_⟩ := stands
    exact Nat.add_comm _ 2

/-- What the serialiser writes for a part stands for it exactly if the part is short. -/
theorem standsFor_iff (part : Part) : part.StandsFor part.bytes ↔ part.Short := by
  cases part with
  | raw bytes => exact iff_of_true rfl trivial
  | text str =>
    refine ⟨?_,fun short => ⟨_,_,rfl,ParserExecute.be16_value (Nat.lt_succ_of_le short)⟩⟩
    rintro ⟨high,low,_,same⟩
    have top := high.toNat_lt
    have bottom := low.toNat_lt
    change str.length ≤ 65535
    omega

/-- Bytes that stand for the parts can be told apart in one way only. -/
theorem standsFor_flatten {parts : List Part} {pieces : List (List UInt8)} (stand : List.Forall₂ StandsFor parts pieces)
    (same : parts.flatMap bytes = pieces.flatten) : ∀ part ∈ parts, part.Short := by
  induction stand with
  | nil => simp
  | cons first rest ih =>
    rename_i part piece parts pieces
    rw [List.flatMap_cons,List.flatten_cons] at same
    obtain ⟨head,tail⟩ := List.append_inj same (part.length_bytes.trans first.length.symm)
    have short := (standsFor_iff part).mp (head ▸ first)
    simpa [short] using ih tail

theorem standsFor_bytes {parts : List Part} (short : ∀ part ∈ parts, part.Short) :
    List.Forall₂ StandsFor parts (parts.map bytes) := by
  induction parts with
  | nil => exact .nil
  | cons part parts ih =>
    rw [List.forall_mem_cons] at short
    exact .cons ((standsFor_iff part).mpr short.1) (ih short.2)

end Part

def connectParts (connect : Connect) : List Part :=
  [.text (bytesOf connect.protocolName),.raw [connect.protocolVersion],.raw [connect.flagsValue],.raw (be16 connect.keepalive.toNat),
    .text (bytesOf connect.clientId)] ++
  ((if connect.will then [.text (bytesOf connect.willTopic)] else []) ++
    ((if connect.will then [.text (bytesOf connect.willMessage)] else []) ++
      ((if connect.usernameFollows then [.text (bytesOf connect.username)] else []) ++
        if connect.passwordFollows then [.text (bytesOf connect.password)] else [])))

/-- The parts of a message's body before the payload. -/
def partsOf (message : Message) : List Part :=
  match message.common.type with
  | .connect => connectParts message.connect
  | .connack => [.raw [message.connack.unused,message.connack.returnCode]]
  | .publish => [.text (bytesOf message.publish.topicName)] ++
      if 0 < message.common.qos then [.raw (be16 message.publish.messageId.toNat)] else []
  | .puback => [.raw (be16 message.puback.messageId.toNat)]
  | .subscribe => [.raw (be16 message.subscribe.messageId.toNat),.text (bytesOf (message.subscribe.topics.bind TopicPair.name)),
      .raw [(message.subscribe.topics.map TopicPair.payload).getD 0]]
  | _ => []

def payloadOf (message : Message) : List UInt8 := (payloadBuffer message).getD []

/-- The number of bytes behind the fixed header. -/
def packetLength (message : Message) : Nat := ((partsOf message).map Part.length).sum + (payloadOf message).length

/-- What comes of a message: an error, an end in an assertion or behind a NULL pointer, or the bytes that are handed down before the payload. -/
inductive Encoded
  | refused
  | aborted
  | handedDown (bytes : List UInt8)
  deriving DecidableEq, Repr

/-- The codec layer's way from a message to its first bytes, with assertions compiled in or not; there is memory. -/
def encodeMessage (assertions : Bool) (message : Message) : Encoded :=
  match serialiserSize message with
  | .error .error => .refused
  | .error .nullPointer => .aborted
  | .ok size =>
    if assertions && 268435455 < size.remainingLen then .aborted
    else
      match serialiserWrite message (.makeEmptyDescAlloc (UInt32.ofNat (size.msgLen - size.publishPayloadLen))) size.remainingLen with
      | .error .error => .refused
      | .error .nullPointer => .aborted
      | .ok buffer => .handedDown buffer.data

/-- The bytes are the fixed header and what stands for the parts of the message; the length digits count these and the payload. -/
def WellFormed (message : Message) (out : List UInt8) : Prop :=
  ∃ digits pieces, out = message.common.commonValue :: (digits ++ pieces.flatten) ∧ Base128.Digits digits ∧
    List.Forall₂ Part.StandsFor (partsOf message) pieces ∧
      Base128.value digits = pieces.flatten.length + (payloadOf message).length ∧ Base128.value digits ≤ 268435455

/-- Either an error is reported or the packet is well formed. -/
def Sane (message : Message) (encoded : Encoded) : Prop := encoded = .refused ∨ ∃ out, encoded = .handedDown out ∧ WellFormed message out

/-- What the codec layer does with a message, as long as there is memory, follows from what comes of it. -/
theorem pushEncode_encodes (layer : CodecLayer) (msg : SentMessage) (memory : layer.faults = []) :
    layer.pushEncode (some msg) =
      match encodeMessage false msg.contents with
      | .refused => ({layer with msgId := getMessageId msg.contents,msgType := msg.contents.common.type}.emit .failed).pushErrHandling (some msg)
      | .aborted => {layer with msgId := getMessageId msg.contents,msgType := msg.contents.common.type}.crash
      | .handedDown out => {layer with
          msgId := getMessageId msg.contents
          msgType := msg.contents.common.type
          pushCs := .header}.emit (.pushPrev out .ok) := by
  have there (layer : CodecLayer) (yes no : CodecLayer → CodecLayer) (memory : layer.faults = []) : layer.allocate yes no = yes layer := by
    rw [CodecLayer.allocate,CodecLayer.attempt,memory]
  rw [CodecLayer.pushEncode,encodeMessage]
  simp only
  cases serialiserSize msg.contents with
  | error failure => cases failure <;> rfl
  | ok size =>
    simp only [Bool.false_and,Bool.false_eq_true,if_false]
    rw [there]
    swap
    · exact memory
    cases serialiserWrite msg.contents (.makeEmptyDescAlloc (UInt32.ofNat (size.msgLen - size.publishPayloadLen))) size.remainingLen with
    | error failure => cases failure <;> rfl
    | ok buffer => exact there _ _ _ memory

section Built

variable {message : Message}

theorem connectParts_bytes (connect : Connect) : (connectParts connect).flatMap Part.bytes = connectBytes connect := by
  unfold connectParts connectBytes
  cases connect.will <;> cases connect.usernameFollows <;> cases connect.passwordFollows <;>
    simp [Part.bytes,stringBytes]

/-- The body of the message as the serialiser sizes and writes it, or refuses to. -/
structure Laid (message : Message) : Prop where
  agrees : Agrees message ((partsOf message).flatMap Part.bytes) (payloadOf message).length
  refuses : Refuses (writeBody · message) ((partsOf message).flatMap Part.bytes)

theorem payloadOf_other (other : message.common.type ≠ .publish) : payloadOf message = [] := by
  rw [payloadOf,payloadBuffer,if_neg other]
  rfl

/-- A message that is no PUBLISH is laid out by its parts alone. -/
theorem laid_other (written : List UInt8) (other : message.common.type ≠ .publish)
    (same : (partsOf message).flatMap Part.bytes = written) (sized : bodySize message = .ok (written.length,0))
    (writes : Writes (writeBody · message) written) (refuses : Refuses (writeBody · message) written) : Laid message := by
  subst same
  exact ⟨⟨by rw [payloadOf_other other]; exact sized,writes⟩,refuses⟩

theorem silent_laid {type : MqttType} (empty : type = .pingreq ∨ type = .disconnect) :
    Laid {common := {commonValue := Common.ofBits 0 0 0 type}} := by
  rcases empty with rfl | rfl
  all_goals
    apply laid_other []
    · rw [Common.type_ofBits]
      decide
    · simp only [partsOf,Common.type_ofBits]
      rfl
    · simp only [bodySize,Common.type_ofBits]
      rfl
    · simp only [writeBody,Common.type_ofBits]
      exact .pure
    · simp only [writeBody,Common.type_ofBits]
      exact .pure

theorem puback_laid (msgId : UInt16) : Laid (fillWithPubackData msgId) := by
  unfold fillWithPubackData
  apply laid_other (be16 msgId.toNat)
  · rw [Common.type_ofBits]
    decide
  · simp only [partsOf,Common.type_ofBits]
    exact List.append_nil _
  · simp only [bodySize,Common.type_ofBits]
    rfl
  · simp only [writeBody,Common.type_ofBits]
    exact write16_writes msgId.toNat
  · simp only [writeBody,Common.type_ofBits]
    exact write16_refuses msgId.toNat

theorem connack_laid (returnCode : UInt8) : Laid (fillWithConnackData returnCode) := by
  unfold fillWithConnackData
  apply laid_other ([0] ++ [returnCode])
  · rw [Common.type_ofBits]
    decide
  · simp only [partsOf,Common.type_ofBits]
    rfl
  · simp only [bodySize,Common.type_ofBits]
    rfl
  · simp only [writeBody,Common.type_ofBits]
    exact (write8_writes 0).bind (write8_writes returnCode)
  · simp only [writeBody,Common.type_ofBits]
    exact .bind (write8_writes 0) (write8_refuses 0) (write8_refuses returnCode)

theorem connect_laid {connect : Connect} (name : (bytesOf connect.protocolName).length = 4) (announced : Announced connect) :
    Laid {common := ⟨Common.ofBits 0 0 0 .connect,0⟩,connect := connect} := by
  have agrees := connect_agrees name announced 0
  apply laid_other (connectBytes connect)
  · rw [Common.type_ofBits]
    decide
  · simp only [partsOf,Common.type_ofBits]
    exact connectParts_bytes connect
  · exact agrees.sized
  · exact agrees.writes
  · simp only [writeBody,Common.type_ofBits]
    exact connect_refuses connect

theorem subscribe_laid (msgId : UInt16) (name : DataDesc) (qos : UInt8) (dup : Nat) :
    Laid {common := {commonValue := Common.ofBits 0 1 dup .subscribe},subscribe := ⟨msgId,some ⟨some name,qos⟩⟩} := by
  apply laid_other (be16 msgId.toNat ++ (stringBytes (some name) ++ [qos]))
  · rw [Common.type_ofBits]
    decide
  · simp only [partsOf,Common.type_ofBits]
    simp [Part.bytes,stringBytes]
  · simp only [bodySize,Common.type_ofBits,List.length_append,stringBytes_length,be16_length,List.length_singleton]
    refine congrArg (fun n => Except.ok (n,0)) ?_
    omega
  · simp only [writeBody,Common.type_ofBits]
    exact (write16_writes msgId.toNat).bind ((writeString_writes _).bind (write8_writes qos))
  · simp only [writeBody,Common.type_ofBits]
    exact .bind (write16_writes msgId.toNat) (write16_refuses msgId.toNat)
      (.bind (writeString_writes _) (writeString_refuses _) (write8_refuses qos))

theorem publish_laid (name desc : DataDesc) (id : UInt16) (retain qos dup : Nat) : Laid {
    common := {commonValue := Common.ofBits retain qos dup .publish}
    publish := ⟨some name,id,some desc⟩} := by
  have payload : (payloadOf {
      common := {commonValue := Common.ofBits retain qos dup .publish}
      publish := ⟨some name,id,some desc⟩}).length = desc.length := by
    simp only [payloadOf,payloadBuffer,Common.type_ofBits,if_true,Option.bind_some]
    split
    · rfl
    · rename_i empty
      exact (Nat.eq_zero_of_not_pos empty).symm
  have bytes : (partsOf {
      common := {commonValue := Common.ofBits retain qos dup .publish}
      publish := ⟨some name,id,some desc⟩}).flatMap Part.bytes =
        stringBytes (some name) ++ (if 0 < qos % 4 then be16 id.toNat else []) := by
    simp only [partsOf,Common.type_ofBits,Common.qos_ofBits]
    split <;> simp [Part.bytes,stringBytes]
  have digits : (if 0 < qos % 4 then be16 id.toNat else []).length = if 0 < qos % 4 then 2 else 0 := by
    split <;> rfl
  refine ⟨⟨?_,?_⟩,?_⟩ <;> rw [bytes]
  · rw [payload]
    simp only [bodySize,Common.type_ofBits,Common.qos_ofBits,List.length_append,stringBytes_length]
    rw [digits]
    rfl
  · simp only [writeBody,Common.type_ofBits,Common.qos_ofBits]
    exact (writeString_writes (some name)).bind (Writes.ite fun _ => write16_writes id.toNat)
  · simp only [writeBody,Common.type_ofBits,Common.qos_ofBits]
    exact .bind (writeString_writes (some name)) (writeString_refuses (some name)) (Refuses.ite fun _ => write16_refuses id.toNat)

theorem Built.laid (built : Built message) : Laid message := by
  cases built with
  | pingreq => exact silent_laid (.inl rfl)
  | puback msgId => exact puback_laid msgId
  | connack returnCode => exact connack_laid returnCode
  | disconnect => exact silent_laid (.inr rfl)
  | connect username password keepaliveTimeout sessionType willTopic willMessage willQos willRetain _ filled =>
    obtain ⟨connect,rfl,name,announced⟩ := connect_announced filled
    exact connect_laid name announced
  | publish topic content qos retain dup id _ filled =>
    obtain ⟨name,desc,rfl⟩ := publish_filled filled
    exact publish_laid name desc id retain qos dup
  | subscribe topic msgId qos dup _ filled =>
    cases topic with
    | none => exact absurd filled (by simp [fillWithSubscribeData])
    | some topic =>
      obtain rfl := Except.ok.inj filled
      exact subscribe_laid msgId _ qos dup

theorem raw_length {bytes : List UInt8} (member : Part.raw bytes ∈ partsOf message) : bytes.length ≤ 2 := by
  have number (value : Nat) : (be16 value).length ≤ 2 := (be16_length value).le
  unfold partsOf connectParts at member
  split at member
  · cases message.connect.will <;> cases message.connect.usernameFollows <;> cases message.connect.passwordFollows <;>
      simp at member <;> rcases member with rfl | rfl | rfl <;> simp [be16_length]
  all_goals
    simp at member
    try rcases member with rfl | rfl
    all_goals simp_all [be16_length]

theorem partsOf_length (message : Message) : (partsOf message).length ≤ 9 := by
  unfold partsOf connectParts
  split
  · cases message.connect.will <;> cases message.connect.usernameFollows <;> cases message.connect.passwordFollows <;> simp
  · simp
  · split <;> simp
  all_goals simp

theorem Built.payload_le (built : Built message) : (payloadOf message).length ≤ 131072 := by
  have silent (other : message.common.type ≠ .publish) : (payloadOf message).length ≤ 131072 := by
    rw [payloadOf_other other]
    exact Nat.zero_le _
  cases built with
  | publish topic content qos retain dup id _ filled =>
    unfold fillWithPublishData at filled
    split at filled
    · contradiction
    · rename_i small
      have taken := List.length_take_le' (UInt32.ofNat content.data.length).toNat content.data
      have length : content.data.length ≤ 131072 := Nat.le_of_not_lt small
      cases topic with
      | none => contradiction
      | some topic =>
        obtain rfl := Except.ok.inj filled
        simp only [payloadOf,payloadBuffer,Common.type_ofBits,if_true,Option.bind_some]
        split
        · exact taken.trans length
        · exact Nat.zero_le _
  | connect username password keepaliveTimeout sessionType willTopic willMessage willQos willRetain _ filled =>
    obtain ⟨connect,rfl,_⟩ := connect_announced filled
    exact silent (by rw [Common.type_ofBits]; decide)
  | subscribe topic msgId qos dup _ filled =>
    cases topic with
    | none => exact absurd filled (by simp [fillWithSubscribeData])
    | some topic =>
      obtain rfl := Except.ok.inj filled
      exact silent (by rw [Common.type_ofBits]; decide)
  | pingreq => exact silent (by simp [fillWithPingreqData,Common.type_ofBits])
  | puback msgId => exact silent (by simp [fillWithPubackData,Common.type_ofBits])
  | connack returnCode => exact silent (by simp [fillWithConnackData,Common.type_ofBits])
  | disconnect => exact silent (by simp [fillWithDisconnectData,Common.type_ofBits])

/-- The strings must be long for the packet to be too long. -/
theorem Built.packetLength_le (built : Built message) (short : ∀ part ∈ partsOf message, part.Short) :
    packetLength message ≤ 268435455 := by
  have each : ∀ n ∈ (partsOf message).map Part.length, n ≤ 65537 := by
    intro n mapped
    obtain ⟨part,member,same⟩ := List.mem_map.mp mapped
    have bound := short part member
    subst same
    cases part with
    | raw bytes => exact (raw_length member).trans (by decide)
    | text str => exact Nat.add_le_add_left bound 2
  have sum := List.sum_le_card_nsmul _ _ each
  have count := partsOf_length message
  have payload := built.payload_le
  rw [List.length_map,smul_eq_mul] at sum
  rw [packetLength]
  omega

theorem packetLength_eq (message : Message) :
    packetLength message = ((partsOf message).flatMap Part.bytes).length + (payloadOf message).length := by
  rw [packetLength,List.length_flatMap]
  simp only [Part.length_bytes]

theorem Laid.handedDown (laid : Laid message) (assertions : Bool) (bound : packetLength message ≤ 268435455) :
    encodeMessage assertions message = .handedDown (message.common.commonValue ::
      (Base128.encode (packetLength message) ++ (partsOf message).flatMap Part.bytes)) := by
  obtain ⟨size,buffer,sized,wrote,_,_,remaining,_,data⟩ := laid.agrees.fills (packetLength_eq message ▸ bound)
  rw [← packetLength_eq] at remaining
  have fitting : (assertions && decide (268435455 < size.remainingLen)) = false := by
    rw [remaining,decide_eq_false (by omega),Bool.and_false]
  rw [encodeMessage,sized]
  simp only [fitting,Bool.false_eq_true,if_false,wrote]
  rw [data,remaining]

theorem Laid.tooLong (laid : Laid message) (assertions : Bool) (large : 268435455 < packetLength message) :
    encodeMessage assertions message = if assertions then .aborted else .refused := by
  rw [packetLength_eq] at large
  obtain ⟨n,total⟩ : ∃ n, ((partsOf message).flatMap Part.bytes).length + (payloadOf message).length = n := ⟨_,rfl⟩
  have none_counted : getRemainingLengthBytes n = 0 := by
    unfold getRemainingLengthBytes
    rw [if_neg (by omega),if_neg (by omega),if_neg (by omega),if_neg (by omega)]
  have sized : serialiserSize message = .ok ⟨1 + n,n,(payloadOf message).length⟩ := by
    rw [serialiserSize,laid.agrees.sized,total]
    change Except.ok _ = _
    rw [none_counted]
    rfl
  rw [encodeMessage,sized]
  cases assertions with
  | true => simp only [Bool.true_and,decide_eq_true_eq,if_pos (total ▸ large),if_true]
  | false =>
    have whole := Refuses.bind (write8_writes message.common.commonValue) (write8_refuses message.common.commonValue)
      (.bind (writeRemainingLength_writes n) (writeRemainingLength_refuses n) laid.refuses)
    have digits := (Base128.digits_encode n).length_pos
    have refused := whole (.makeEmptyDescAlloc (UInt32.ofNat (1 + n - (payloadOf message).length))) (by
      have word : (UInt32.ofNat (1 + n - (payloadOf message).length)).toNat ≤ 1 + n - (payloadOf message).length := by
        rw [UInt32.toNat_ofNat']
        exact Nat.mod_le _ _
      rw [DataDesc.length_makeEmptyDescAlloc]
      simp only [List.length_append,List.length_singleton,DataDesc.makeEmptyDescAlloc]
      omega)
    simp only [Bool.false_and,Bool.false_eq_true,if_false]
    change (match serialiserWrite message _ n with
      | .error .error => Encoded.refused
      | .error .nullPointer => .aborted
      | .ok buffer => .handedDown buffer.data) = _
    rw [show serialiserWrite message _ n = .error .error from refused]

/-- What is written is well formed exactly if no string is too long for its prefix. -/
theorem wellFormed_iff (bound : packetLength message ≤ 268435455) :
    WellFormed message (message.common.commonValue ::
      (Base128.encode (packetLength message) ++ (partsOf message).flatMap Part.bytes)) ↔ ∀ part ∈ partsOf message, part.Short := by
  constructor
  · rintro ⟨digits,pieces,same,own,stand,_⟩
    obtain ⟨_,flat⟩ := (Base128.digits_encode _).append_inj own (List.cons.inj same).2
    exact Part.standsFor_flatten stand flat
  · intro short
    have flat : ((partsOf message).map Part.bytes).flatten = (partsOf message).flatMap Part.bytes := List.flatMap_def.symm
    refine ⟨_,_,by rw [flat],Base128.digits_encode _,Part.standsFor_bytes short,?_,?_⟩
    · rw [Base128.value_encode,packetLength_eq,flat]
    · rwa [Base128.value_encode]

/-- The packet of a message that the helpers have built is sane exactly if its strings have at most 65535 bytes, or, where assertions
are compiled out, if it is too long for its remaining length. -/
theorem sane_iff (assertions : Bool) (built : Built message) : Sane message (encodeMessage assertions message) ↔
    (∀ part ∈ partsOf message, part.Short) ∨ (assertions = false ∧ 268435455 < packetLength message) := by
  rcases Nat.lt_or_ge 268435455 (packetLength message) with large | bound
  · rw [built.laid.tooLong assertions large]
    have long : ¬∀ part ∈ partsOf message, part.Short := fun short => absurd (built.packetLength_le short) (Nat.not_le_of_lt large)
    cases assertions with
    | true => simp [Sane,long]
    | false => simp [Sane,large]
  · rw [built.laid.handedDown assertions bound]
    have small : ¬268435455 < packetLength message := Nat.not_lt_of_le bound
    simp only [Sane,reduceCtorEq,false_or,small,and_false,or_false,Encoded.handedDown.injEq,exists_eq_left']
    exact wellFormed_iff bound

theorem sane_iff_publish : Sane somePublish (encodeMessage true somePublish) := by
  have parts : partsOf somePublish = [.text [0x61,0x62],.raw [0,7]] := rfl
  refine (sane_iff true built_somePublish).mpr (.inl ?_)
  simp [parts,Part.Short]

end Built

/-- A SUBSCRIBE of one topic. -/
def subscribeTo (topic : List UInt8) : Message := {
  common := {commonValue := Common.ofBits 0 1 0 .subscribe}
  subscribe := ⟨1,some ⟨some (.makeDescFromStringCopy topic),1⟩⟩}

theorem subscribeTo_malformed {topic : List UInt8} (length : topic.length = 65536) (assertions : Bool) :
    ¬Sane (subscribeTo topic) (encodeMessage assertions (subscribeTo topic)) := by
  have parts : partsOf (subscribeTo topic) = [.raw (be16 1),.text topic,.raw [1]] := by
    have data : (DataDesc.makeDescFromStringCopy topic).data = topic := DataDesc.ofBytes_data _ (by rw [length]; decide)
    simp only [partsOf,subscribeTo,Common.type_ofBits,Option.bind_some,Option.map_some,bytesOf,data]
    rfl
  have silent : payloadOf (subscribeTo topic) = [] := payloadOf_other (by rw [subscribeTo,Common.type_ofBits]; decide)
  have small : packetLength (subscribeTo topic) ≤ 268435455 := by
    rw [packetLength,parts,silent]
    simp only [List.map_cons,List.map_nil,List.sum_cons,List.sum_nil,Part.length,length,be16_length,List.length_singleton,List.length_nil]
    omega
  have built : Built (subscribeTo topic) := .subscribe (some topic) 1 1 0 _ rfl
  rw [built.laid.handedDown assertions small]
  rintro (refused | ⟨out,same,wellFormed⟩)
  · contradiction
  · obtain rfl := Encoded.handedDown.inj same
    have short := (wellFormed_iff small).mp wellFormed (.text topic) (by rw [parts]; simp)
    rw [Part.Short,length] at short
    omega

/-- A topic of 65536 bytes goes out behind the length 0. -/
theorem longTopic_malformed : fillWithSubscribeData (some (List.replicate 65536 0x61)) 1 1 0 = .ok (subscribeTo (List.replicate 65536 0x61)) ∧
    ∀ assertions, ¬Sane (subscribeTo (List.replicate 65536 0x61)) (encodeMessage assertions (subscribeTo (List.replicate 65536 0x61))) :=
  ⟨rfl,subscribeTo_malformed List.length_replicate⟩

end Mqtt

end XivelyClient
