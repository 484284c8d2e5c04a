import XivelyClient.Mqtt.DataHelpers
import XivelyClient.Mqtt.RoundTrip
import XivelyClient.Mqtt.Sending

/-! The size that is computed for a message and the bytes that are written for it. -/
namespace XivelyClient.Mqtt
open Serialiser Wire

section Sizes

variable {message : Message} {written : List UInt8} {payload : Nat}

/-- The computed size is that of what is written and of the payload. -/
structure Agrees (message : Message) (written : List UInt8) (payload : Nat) : Prop where
  sized : bodySize message = .ok (written.length + payload,payload)
  writes : Writes (writeBody · message) written

def stringBytes (desc : Option DataDesc) : List UInt8 := be16 (bytesOf desc).length ++ bytesOf desc

theorem stringBytes_length (desc : DataDesc) : (stringBytes (some desc)).length = 2 + desc.length := by
  rw [stringBytes,List.length_append,be16_length]
  rfl

/-- What the flags announce is there. -/
structure Announced (connect : Connect) : Prop where
  will : connect.will = true → ∃ topic message, connect.willTopic = some topic ∧ connect.willMessage = some message
  username : connect.usernameFollows = true → ∃ username, connect.username = some username
  password : connect.passwordFollows = true → ∃ password, connect.password = some password

def connectBytes (connect : Connect) : List UInt8 :=
  stringBytes connect.protocolName ++ ([connect.protocolVersion] ++ ([connect.flagsValue] ++
    (be16 connect.keepalive.toNat ++ (stringBytes connect.clientId ++
      ((if connect.will then stringBytes connect.willTopic else []) ++
        ((if connect.will then stringBytes connect.willMessage else []) ++
          ((if connect.usernameFollows then stringBytes connect.username else []) ++
            if connect.passwordFollows then stringBytes connect.password else [])))))))

theorem connect_writes (connect : Connect) : Writes (writeConnect · connect) (connectBytes connect) := by
  have optional (p : Bool) {write : DataDesc → Except SerialiserFailure DataDesc} {bytes : List UInt8}
      (writes : Writes write bytes) : Writes (fun out => if p = true then write out else pure out)
        (if p = true then bytes else []) := Writes.ite fun _ => writes
  have password := optional connect.passwordFollows (writeString_writes connect.password)
  have username := (optional connect.usernameFollows (writeString_writes connect.username)).bind password
  have willMessage := (optional connect.will (writeString_writes connect.willMessage)).bind username
  have wills := (optional connect.will (writeString_writes connect.willTopic)).bind willMessage
  have whole := (writeString_writes connect.protocolName).bind ((write8_writes connect.protocolVersion).bind
    ((write8_writes connect.flagsValue).bind ((write16_writes connect.keepalive.toNat).bind
      ((writeString_writes connect.clientId).bind wills))))
  intro out room
  obtain ⟨out',done,facts⟩ := whole out room
  refine ⟨out',?_,facts⟩
  change writeConnect out connect = _
  rw [← done,writeConnect]
  cases connect.will <;> cases connect.usernameFollows <;> rfl

private theorem announced_sized {desc : Option DataDesc} {p : Bool} (there : p = true → ∃ d, desc = some d)
    (k : Nat → Except SerialiserFailure Nat) :
    (if p = true then ((2 + ·) <$> lengthOf desc) >>= k else pure 0 >>= k) =
      k (if p = true then stringBytes desc else []).length := by
  cases p with
  | false => rfl
  | true =>
    obtain ⟨d,rfl⟩ := there rfl
    simp only [if_true,stringBytes_length]
    rfl

private theorem will_sized {topic message : Option DataDesc} {p : Bool}
    (there : p = true → ∃ d e, topic = some d ∧ message = some e) (k : Nat → Except SerialiserFailure Nat) :
    (if p = true then lengthOf topic >>= fun topic => lengthOf message >>= fun message =>
        pure (4 + topic + message) >>= k
      else pure 0 >>= k) = k ((if p = true then stringBytes topic else []).length +
        (if p = true then stringBytes message else []).length) := by
  cases p with
  | false => rfl
  | true =>
    obtain ⟨d,e,rfl,rfl⟩ := there rfl
    simp only [if_true,stringBytes_length]
    change k (4 + d.length + e.length) = _
    congr 1
    omega

theorem connect_sized (connect : Connect) (name : (bytesOf connect.protocolName).length = 4)
    (announced : Announced connect) : connectSize connect = .ok (connectBytes connect).length := by
  have clientId : (connect.clientId.map DataDesc.length).getD 0 = (bytesOf connect.clientId).length := by
    cases connect.clientId <;> rfl
  unfold connectSize
  dsimp only
  rw [announced_sized announced.username,announced_sized announced.password,will_sized announced.will,clientId]
  refine congrArg Except.ok ?_
  simp only [connectBytes,List.length_append,List.length_singleton,be16_length,stringBytes,name]
  omega

/-- For a body that agrees, the buffer is filled to its capacity and the remaining length is right. -/
theorem Agrees.fills (agrees : Agrees message written payload) (bound : written.length + payload ≤ 268435455) :
    ∃ size buffer, serialiserSize message = .ok size ∧
      serialiserWrite message (.makeEmptyDescAlloc (UInt32.ofNat (size.msgLen - size.publishPayloadLen)))
        size.remainingLen = .ok buffer ∧
      buffer.length = size.msgLen - size.publishPayloadLen ∧ buffer.capacity.toNat = buffer.length ∧
      size.remainingLen = written.length + payload ∧
      getRemainingLengthBytes size.remainingLen = (Base128.encode size.remainingLen).length ∧
      buffer.data = message.common.commonValue :: (Base128.encode size.remainingLen ++ written) := by
  have whole := (write8_writes message.common.commonValue).bind
    ((writeRemainingLength_writes (written.length + payload)).bind agrees.writes)
  have digits := Base128.length_encode_le (n := written.length + payload) (k := 3) (by omega)
  have counted := getRemainingLengthBytes_eq bound
  obtain ⟨room,hroom⟩ : ∃ room, 1 + (written.length + payload) +
      getRemainingLengthBytes (written.length + payload) - payload = room := ⟨_,rfl⟩
  have exact_ : room = 1 + ((Base128.encode (written.length + payload)).length + written.length) := by omega
  have word : (UInt32.ofNat room).toNat = room := by
    rw [UInt32.toNat_ofNat']
    omega
  obtain ⟨buffer,done,data,capacity⟩ := whole (.makeEmptyDescAlloc (UInt32.ofNat room)) (by
    rw [DataDesc.length_makeEmptyDescAlloc]
    simp only [List.length_append,List.length_singleton]
    exact (Nat.zero_add _).trans_le (exact_.symm.trans word.symm).le)
  have filled : buffer.data = message.common.commonValue ::
      (Base128.encode (written.length + payload) ++ written) := data
  have length : buffer.length = room := by
    rw [DataDesc.length,filled,exact_]
    simp only [List.length_cons,List.length_append]
    omega
  have size : serialiserSize message = .ok ⟨1 + (written.length + payload) +
      getRemainingLengthBytes (written.length + payload),written.length + payload,payload⟩ := by
    rw [serialiserSize,agrees.sized]
    rfl
  refine ⟨_,buffer,size,?_,length.trans hroom.symm,?_,rfl,counted,filled⟩
  · rw [hroom]
    exact done
  · rw [capacity,length]
    exact word

theorem connectFlags_bits (cleanSession will : Bool) (willQos willRetain : Nat) (password username : Bool) :
    (connectFlags cleanSession will willQos willRetain password username).toNat.testBit 2 = will ∧
    (connectFlags cleanSession will willQos willRetain password username).toNat.testBit 6 = password ∧
    (connectFlags cleanSession will willQos willRetain password username).toNat.testBit 7 = username := by
  simp only [connectFlags,UInt8.toNat_ofNat',Nat.testBit_eq_decide_div_mod_eq]
  cases cleanSession <;> cases will <;> cases password <;> cases username <;>
    simp only [Bool.toNat_true,Bool.toNat_false,decide_eq_true_eq,decide_eq_false_iff_not] <;> omega

theorem connect_agrees {connect : Connect} (name : (bytesOf connect.protocolName).length = 4)
    (announced : Announced connect) (length : UInt32) :
    Agrees {common := ⟨Common.ofBits 0 0 0 .connect,length⟩,connect := connect} (connectBytes connect) 0 := by
  refine ⟨?_,?_⟩
  · simp only [bodySize,Common.type_ofBits]
    rw [connect_sized connect name announced]
    rfl
  · simp only [writeBody,Common.type_ofBits]
    exact connect_writes connect

theorem connect_announced {username password willTopic willMessage : Option (List UInt8)}
    {keepaliveTimeout : UInt16} {sessionType : SessionType} {willQos willRetain : Nat}
    (filled : fillWithConnectData username password keepaliveTimeout sessionType willTopic willMessage willQos
      willRetain = .ok message) :
    ∃ connect : Connect, message = {common := ⟨Common.ofBits 0 0 0 .connect,0⟩,connect := connect} ∧
      (bytesOf connect.protocolName).length = 4 ∧ Announced connect := by
  have someOf {desc : Option (List UInt8)} (there : desc.isSome = true) (f : List UInt8 → DataDesc) :
      ∃ d, desc.map f = some d := by
    obtain ⟨str,rfl⟩ := Option.isSome_iff_exists.mp there
    exact ⟨f str,rfl⟩
  have passwordThere {p : Bool} (follows : p = true) (eq : p = (username.isSome && password.isSome)) :
      ∃ d, (if p = true then password.map DataDesc.makeDescFromStringCopy else none) = some d := by
    rw [if_pos follows]
    rw [follows] at eq
    exact someOf (by simpa using (Bool.and_eq_true_iff.mp eq.symm).2) _
  unfold fillWithConnectData at filled
  cases willTopic with
  | none =>
    cases willMessage with
    | some _ => contradiction
    | none =>
      obtain rfl := Except.ok.inj filled
      obtain ⟨will,pass,user⟩ := connectFlags_bits (decide (sessionType = .clean)) false 0 0
        (username.isSome && password.isSome) username.isSome
      refine ⟨_,rfl,rfl,⟨fun follows => ?_,fun follows => ?_,fun follows => ?_⟩⟩
      · exact absurd (will.symm.trans follows) (by simp)
      · exact someOf (user.symm.trans follows) _
      · exact passwordThere (pass.symm.trans follows) rfl
  | some willTopic =>
    cases willMessage with
    | none => contradiction
    | some willMessage =>
      obtain rfl := Except.ok.inj filled
      obtain ⟨_,pass,user⟩ := connectFlags_bits (decide (sessionType = .clean)) true willQos willRetain
        (username.isSome && password.isSome) username.isSome
      refine ⟨_,rfl,rfl,⟨fun follows => ⟨_,_,rfl,rfl⟩,fun follows => ?_,fun follows => ?_⟩⟩
      · exact someOf (user.symm.trans follows) _
      · exact passwordThere (pass.symm.trans follows) rfl

theorem publish_filled {topic : Option (List UInt8)} {content : DataDesc} {qos retain dup : Nat} {id : UInt16}
    (filled : fillWithPublishData topic content qos retain dup id = .ok message) :
    ∃ name desc, message = {
      common := {commonValue := Common.ofBits retain qos dup .publish}
      publish := ⟨some name,id,some desc⟩} := by
  unfold fillWithPublishData at filled
  split at filled
  · contradiction
  · cases topic with
    | none => contradiction
    | some topic => exact ⟨_,_,(Except.ok.inj filled).symm⟩

/-- Whatever the helpers build is of the computed size, and only a PUBLISH has a payload behind its header. -/
theorem Built.agrees (built : Built message) :
    ∃ written, Agrees message written ((payloadBuffer message).getD []).length := by
  have silent {type : MqttType} (known : message.common.type = type) (other : type ≠ .publish) :
      ((payloadBuffer message).getD []).length = 0 := by
    rw [payloadBuffer,if_neg (known ▸ other)]
    rfl
  cases built with
  | pingreq =>
    refine ⟨[],?_⟩
    rw [silent (Common.type_ofBits 0 0 0 .pingreq 0) (by decide)]
    exact ⟨by simp only [bodySize,fillWithPingreqData,Common.type_ofBits]; rfl,
      by simp only [writeBody,fillWithPingreqData,Common.type_ofBits]; exact .pure⟩
  | puback msgId =>
    refine ⟨be16 msgId.toNat,?_⟩
    rw [silent (Common.type_ofBits 0 0 0 .puback 0) (by decide)]
    exact ⟨by simp only [bodySize,fillWithPubackData,Common.type_ofBits]; rfl,
      by simp only [writeBody,fillWithPubackData,Common.type_ofBits]; exact write16_writes msgId.toNat⟩
  | connack returnCode =>
    refine ⟨[0] ++ [returnCode],?_⟩
    rw [silent (Common.type_ofBits 0 0 0 .connack 0) (by decide)]
    exact ⟨by simp only [bodySize,fillWithConnackData,Common.type_ofBits]; rfl,
      by simp only [writeBody,fillWithConnackData,Common.type_ofBits]
         exact (write8_writes 0).bind (write8_writes returnCode)⟩
  | disconnect =>
    refine ⟨[],?_⟩
    rw [silent (Common.type_ofBits 0 0 0 .disconnect 0) (by decide)]
    exact ⟨by simp only [bodySize,fillWithDisconnectData,Common.type_ofBits]; rfl,
      by simp only [writeBody,fillWithDisconnectData,Common.type_ofBits]; exact .pure⟩
  | connect username password keepaliveTimeout sessionType willTopic willMessage willQos willRetain _ filled =>
    obtain ⟨connect,rfl,name,announced⟩ := connect_announced filled
    refine ⟨connectBytes connect,?_⟩
    rw [silent (Common.type_ofBits 0 0 0 .connect 0) (by decide)]
    exact connect_agrees name announced 0
  | publish topic content qos retain dup id _ filled =>
    obtain ⟨name,desc,rfl⟩ := publish_filled filled
    have buffer : ((payloadBuffer {
        common := {commonValue := Common.ofBits retain qos dup .publish}
        publish := ⟨some name,id,some desc⟩}).getD []).length = desc.length := by
      simp only [payloadBuffer,Common.type_ofBits,if_true,Option.bind_some]
      split
      · rfl
      · rename_i empty
        exact (Nat.eq_zero_of_not_pos empty).symm
    rw [buffer]
    refine ⟨stringBytes (some name) ++ (if 0 < qos % 4 then be16 id.toNat else []),?_,?_⟩
    · simp only [bodySize,Common.type_ofBits,Common.qos_ofBits,List.length_append,stringBytes_length]
      have length : (if 0 < qos % 4 then be16 id.toNat else []).length = if 0 < qos % 4 then 2 else 0 := by
        split <;> rfl
      rw [length]
      rfl
    · simp only [writeBody,Common.type_ofBits,Common.qos_ofBits]
      exact (writeString_writes (some name)).bind (Writes.ite fun _ => write16_writes id.toNat)
  | subscribe topic msgId qos dup _ filled =>
    cases topic with
    | none => exact absurd filled (by simp [fillWithSubscribeData])
    | some topic =>
      obtain rfl := Except.ok.inj filled
      refine ⟨be16 msgId.toNat ++ (stringBytes (some (.makeDescFromStringCopy topic)) ++ [qos]),?_⟩
      rw [silent (Common.type_ofBits 0 1 dup .subscribe 0) (by decide)]
      refine ⟨?_,?_⟩
      · simp only [bodySize,Common.type_ofBits,List.length_append,stringBytes_length,be16_length,
          List.length_singleton]
        refine congrArg (fun n => Except.ok (n,0)) ?_
        omega
      · simp only [writeBody,Common.type_ofBits]
        exact (write16_writes msgId.toNat).bind ((writeString_writes _).bind (write8_writes qos))

/-- The serialiser sizes and writes every message that the helpers build: it fills a fresh buffer of the size
that it has computed, and the length digits stand for the bytes that follow them, payload included. -/
theorem size_write_agreement (built : Built message)
    (bound : ∀ size, serialiserSize message = .ok size → size.remainingLen ≤ 268435455) :
    ∃ size buffer, serialiserSize message = .ok size ∧
      serialiserWrite message (.makeEmptyDescAlloc (UInt32.ofNat (size.msgLen - size.publishPayloadLen)))
        size.remainingLen = .ok buffer ∧
      buffer.capacity.toNat = size.msgLen - size.publishPayloadLen ∧ buffer.length = buffer.capacity.toNat ∧
      ∃ digits rest, buffer.data = message.common.commonValue :: (digits ++ rest) ∧ Base128.Digits digits ∧
        digits.length = getRemainingLengthBytes size.remainingLen ∧ Base128.value digits = size.remainingLen ∧
        size.remainingLen = rest.length + ((payloadBuffer message).getD []).length := by
  obtain ⟨written,agrees⟩ := built.agrees
  have small : written.length + ((payloadBuffer message).getD []).length ≤ 268435455 :=
    bound ⟨_,_,_⟩ (by rw [serialiserSize,agrees.sized]; rfl)
  obtain ⟨size,buffer,sized,wrote,length,capacity,remaining,counted,data⟩ := agrees.fills small
  exact ⟨size,buffer,sized,wrote,capacity.trans length,capacity.symm,Base128.encode size.remainingLen,written,data,
    Base128.digits_encode _,counted.symm,Base128.value_encode _,remaining⟩

/-- A QoS 1 message of three bytes on the topic "ab". -/
def somePublish : Message where
  common := {commonValue := Common.ofBits 0 1 0 .publish}
  publish := {
    topicName := some (.makeDescFromStringShare [0x61,0x62])
    messageId := 7
    content := some (.makeDescFromBufferShare [1,2,3])}

theorem built_somePublish : Built somePublish :=
  .publish (some [0x61,0x62]) ⟨[1,2,3],3,.managed,by decide⟩ 1 0 0 7 somePublish rfl

theorem size_write_agreement_publish : ∃ size buffer, serialiserSize somePublish = .ok size ∧
    serialiserWrite somePublish
      (.makeEmptyDescAlloc (UInt32.ofNat (size.msgLen - size.publishPayloadLen))) size.remainingLen = .ok buffer ∧
    size = ⟨11,9,3⟩ ∧ buffer.data = [0x32,9,0,2,0x61,0x62,0,7] ∧ buffer.length = buffer.capacity.toNat := by
  have sized : serialiserSize somePublish = .ok ⟨11,9,3⟩ := by decide +kernel
  obtain ⟨size,buffer,sized',wrote,_,length,_⟩ := size_write_agreement built_somePublish (by
    intro size sized'
    obtain rfl := Except.ok.inj (sized.symm.trans sized')
    decide)
  obtain rfl := Except.ok.inj (sized.symm.trans sized')
  refine ⟨_,buffer,sized,wrote,rfl,?_,length⟩
  have written : (serialiserWrite somePublish (.makeEmptyDescAlloc 8) 9).map DataDesc.data = .ok [0x32,9,0,2,0x61,0x62,0,7] := by
    decide +kernel
  have same := (congrArg (Except.map DataDesc.data) wrote).symm.trans written
  exact Except.ok.inj same

end Sizes

end XivelyClient.Mqtt
