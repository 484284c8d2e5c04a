import XivelyClient.Mqtt.Encoding
import XivelyClient.Mqtt.Framing

/-! Decoding what has been encoded. The serialiser's bytes are a packet whose body carries what the message
carries, and the parser reads the packet back. -/
namespace XivelyClient.Mqtt.Serialiser
open Wire

/-- A descriptor that is there holds the string that is there. -/
def Holds (desc : Option DataDesc) (s : Option Text) : Prop := desc.map DataDesc.data = s.map Subtype.val

theorem Holds.bytesOf {desc : Option DataDesc} {s : Text} (holds : Holds desc (some s)) :
    bytesOf desc = s.val := by
  rw [Serialiser.bytesOf,holds]
  rfl

theorem Holds.length {desc : Option DataDesc} {s : Text} (holds : Holds desc (some s)) :
    lengthOf desc = .ok s.val.length := by
  cases desc with
  | none => exact absurd holds (by simp [Holds])
  | some desc =>
    have same : desc.data = s.val := Option.some.inj holds
    rw [lengthOf,DataDesc.length,same]

section Connect

structure CarriesConnect (connect : Connect) (c : ConnectBody) : Prop where
  protocolName : bytesOf connect.protocolName = c.protocolName.val
  protocolVersion : connect.protocolVersion = c.protocolVersion
  flagsValue : connect.flagsValue = c.flagsValue
  keepalive : connect.keepalive = c.keepalive
  clientId : bytesOf connect.clientId = c.clientId.val
  willTopic : Holds connect.willTopic c.willTopic
  willMessage : Holds connect.willMessage c.willMessage
  username : Holds connect.username c.username
  password : Holds connect.password c.password

variable {connect : Connect} {c : ConnectBody}

theorem writeOptional_writes {desc : Option DataDesc} {s : Option Text} (holds : Holds desc s) {p : Bool}
    (agrees : s.isSome = p) :
    Writes (fun out => if p = true then writeString out desc else pure out) (optionalText s) := by
  cases s with
  | none =>
    subst agrees
    exact .pure
  | some s =>
    subst agrees
    exact writeString_text holds.bytesOf

theorem writeConnect_writes (carries : CarriesConnect connect c) : Writes (writeConnect · connect) c.encode := by
  have will : connect.will = c.flagsValue.toNat.testBit 2 := congrArg (·.toNat.testBit 2) carries.flagsValue
  have follows : connect.usernameFollows = c.flagsValue.toNat.testBit 7 :=
    congrArg (·.toNat.testBit 7) carries.flagsValue
  have follows' : connect.passwordFollows = c.flagsValue.toNat.testBit 6 :=
    congrArg (·.toNat.testBit 6) carries.flagsValue
  have password := writeOptional_writes carries.password (c.passwordAgrees.trans follows'.symm)
  have username := (writeOptional_writes carries.username (c.usernameAgrees.trans follows.symm)).bind password
  have willMessage := (writeOptional_writes carries.willMessage (c.willMessageAgrees.trans will.symm)).bind username
  have wills := (writeOptional_writes carries.willTopic (c.willTopicAgrees.trans will.symm)).bind willMessage
  have whole := (writeString_text carries.protocolName).bind ((write8_writes c.protocolVersion).bind
    ((write8_writes c.flagsValue).bind ((write16_writes c.keepalive.toNat).bind
      ((writeString_text carries.clientId).bind wills))))
  have bytes : c.encode = text c.protocolName ++ ([c.protocolVersion] ++ ([c.flagsValue] ++
      (be16 c.keepalive.toNat ++ (text c.clientId ++ (optionalText c.willTopic ++ (optionalText c.willMessage ++
        (optionalText c.username ++ optionalText c.password))))))) := by
    simp [ConnectBody.encode,ConnectBody.fixed]
  rw [bytes]
  intro out room
  obtain ⟨out',written,facts⟩ := whole out room
  refine ⟨out',?_,facts⟩
  change writeConnect out connect = _
  rw [← written,writeConnect,carries.protocolVersion,carries.flagsValue,carries.keepalive]
  cases connect.will <;> cases connect.usernameFollows <;> rfl

private theorem optionalSize {desc : Option DataDesc} {s : Option Text} (holds : Holds desc s) {p : Bool}
    (agrees : s.isSome = p) (k : Nat → Except SerialiserFailure Nat) :
    (if p = true then ((2 + ·) <$> lengthOf desc) >>= k else pure 0 >>= k) = k (optionalText s).length := by
  subst agrees
  cases s with
  | none => rfl
  | some s =>
    rw [holds.length]
    change k (2 + s.val.length) = k (text s).length
    rw [text_length]

private theorem willSize {topic message : Option DataDesc} {s t : Option Text} (holds : Holds topic s)
    (holds' : Holds message t) {p : Bool} (agrees : s.isSome = p) (agrees' : t.isSome = p)
    (k : Nat → Except SerialiserFailure Nat) :
    (if p = true then lengthOf topic >>= fun topic => lengthOf message >>= fun message =>
        pure (4 + topic + message) >>= k
      else pure 0 >>= k) = k ((optionalText s).length + (optionalText t).length) := by
  subst agrees
  cases s with
  | none =>
    obtain rfl : t = none := by simpa using agrees'
    rfl
  | some s =>
    obtain ⟨t,rfl⟩ := Option.isSome_iff_exists.mp agrees'
    rw [holds.length,holds'.length]
    change k (4 + s.val.length + t.val.length) = k ((text s).length + (text t).length)
    rw [text_length,text_length]
    congr 1
    omega

theorem connectSize_eq (carries : CarriesConnect connect c) (four : c.protocolName.val.length = 4) :
    connectSize connect = .ok c.encode.length := by
  have will : connect.will = c.flagsValue.toNat.testBit 2 := congrArg (·.toNat.testBit 2) carries.flagsValue
  have follows : connect.usernameFollows = c.flagsValue.toNat.testBit 7 :=
    congrArg (·.toNat.testBit 7) carries.flagsValue
  have follows' : connect.passwordFollows = c.flagsValue.toNat.testBit 6 :=
    congrArg (·.toNat.testBit 6) carries.flagsValue
  have clientId : (connect.clientId.map DataDesc.length).getD 0 = c.clientId.val.length := by
    rw [← carries.clientId]
    cases connect.clientId <;> rfl
  unfold connectSize
  dsimp only
  rw [optionalSize carries.username (c.usernameAgrees.trans follows.symm),
    optionalSize carries.password (c.passwordAgrees.trans follows'.symm),
    willSize carries.willTopic carries.willMessage (c.willTopicAgrees.trans will.symm)
      (c.willMessageAgrees.trans will.symm),clientId]
  refine congrArg Except.ok ?_
  simp only [ConnectBody.encode,ConnectBody.fixed,List.length_append,text_length,be16_length,four,
    List.length_cons,List.length_nil]
  omega

end Connect

section Bodies

variable {message : Message} {body : Body}

/-- The body holds what the message has for its type, in every type that the serialiser writes and the
parser reads. -/
def Carries (message : Message) : Body → Prop
  | .connect c => CarriesConnect message.connect c ∧ c.protocolName.val.length = 4
  | .connack unused returnCode => message.connack = ⟨unused,returnCode⟩
  | .publish topic id payload => Holds message.publish.topicName (some topic) ∧
      message.publish.messageId = id.getD 0 ∧ message.publish.content.map DataDesc.data = some payload
  | .reply id => message.common.type = .puback ∧ message.puback.messageId = id
  | .subscribe id name qos => message.subscribe.messageId = id ∧
      ∃ pair, message.subscribe.topics = some pair ∧ Holds pair.name (some name) ∧ pair.payload = qos
  | .suback id status => message.suback.messageId = id ∧
      ∃ pair, message.suback.topics = some pair ∧ pair.name = none ∧ pair.payload = status
  | .empty => message.common.type = .disconnect

/-- A PUBLISH is written up to its payload. -/
def payloadOf : Body → List UInt8
  | .publish _ _ payload => payload
  | _ => []

theorem bodySize_eq (matching : body.Matches message.common) (carries : Carries message body) :
    bodySize message = .ok (body.encode.length,(payloadOf body).length) := by
  cases body with
  | connect c =>
    have type : message.common.type = .connect := matching
    rw [bodySize,type]
    simp only [connectSize_eq carries.1 carries.2]
    rfl
  | connack unused returnCode =>
    have type : message.common.type = .connack := matching
    rw [bodySize,type]
    rfl
  | publish topic id payload =>
    obtain ⟨type,agrees⟩ : message.common.type = .publish ∧ _ := matching
    obtain ⟨holds,_,content⟩ := carries
    obtain ⟨desc,held,rfl⟩ := Option.map_eq_some_iff.mp content
    have length : (Body.publish topic id desc.data).encode.length =
        2 + topic.val.length + (if 0 < message.common.qos then 2 else 0) + desc.length := by
      rw [(ParserExecute.publish_encode topic id desc.data []).2,DataDesc.length]
      cases id with
      | none => simp_all [ParserExecute.idBytes]
      | some id => simp_all [ParserExecute.idBytes,be16_length]
    rw [bodySize,type,length]
    simp only [holds.length,held]
    rfl
  | reply id =>
    rw [bodySize,carries.1]
    rfl
  | subscribe id name qos =>
    have type : message.common.type = .subscribe := matching
    obtain ⟨_,pair,there,holds,_⟩ := carries
    have length : (Body.subscribe id name qos).encode.length = 2 + 2 + name.val.length + 1 := by
      simp only [Body.encode,List.length_append,be16_length,text_length,List.length_singleton]
      omega
    rw [bodySize,type,length]
    simp only [there,pairOf]
    change (lengthOf pair.name >>= _) = _
    rw [holds.length]
    rfl
  | suback id status =>
    have type : message.common.type = .suback := matching
    rw [bodySize,type]
    rfl
  | empty =>
    have type : message.common.type = .disconnect := carries
    rw [bodySize,type]
    rfl

theorem writeBody_writes (matching : body.Matches message.common) (carries : Carries message body) :
    ∃ written, Writes (writeBody · message) written ∧ body.encode = written ++ payloadOf body := by
  cases body with
  | connect c =>
    have type : message.common.type = .connect := matching
    simp only [writeBody,type]
    exact ⟨c.encode,writeConnect_writes carries.1,(List.append_nil _).symm⟩
  | connack unused returnCode =>
    have type : message.common.type = .connack := matching
    have fields : message.connack = ⟨unused,returnCode⟩ := carries
    simp only [writeBody,type,fields]
    exact ⟨_,(write8_writes unused).bind (write8_writes returnCode),rfl⟩
  | publish topic id payload =>
    obtain ⟨type,agrees⟩ : message.common.type = .publish ∧ _ := matching
    obtain ⟨holds,word,_⟩ := carries
    have idWritten : Writes (fun out => if 0 < message.common.qos then write16 out message.publish.messageId.toNat
        else pure out) (ParserExecute.idBytes id) := by
      cases id with
      | none =>
        have none_ : ¬ 0 < message.common.qos := by simpa using agrees
        simp only [none_,if_false]
        exact .pure
      | some id =>
        have some_ : 0 < message.common.qos := by simpa using agrees
        simp only [some_,if_true,word]
        exact write16_writes id.toNat
    simp only [writeBody,type]
    refine ⟨_,(writeString_text holds.bytesOf).bind idWritten,?_⟩
    rw [List.append_assoc]
    rfl
  | reply id =>
    obtain ⟨type,word⟩ := carries
    simp only [writeBody,type,word]
    exact ⟨_,write16_writes id.toNat,(List.append_nil _).symm⟩
  | subscribe id name qos =>
    have type : message.common.type = .subscribe := matching
    obtain ⟨word,pair,there,holds,rfl⟩ := carries
    simp only [writeBody,type,word,there,pairOf]
    exact ⟨_,(write16_writes id.toNat).bind ((writeString_text holds.bytesOf).bind (write8_writes pair.payload)),
      (List.append_nil _).symm⟩
  | suback id status =>
    have type : message.common.type = .suback := matching
    obtain ⟨word,pair,there,_,rfl⟩ := carries
    simp only [writeBody,type,word,there,pairOf]
    exact ⟨_,(write16_writes id.toNat).bind (write8_writes pair.payload),(List.append_nil _).symm⟩
  | empty =>
    have type : message.common.type = .disconnect := carries
    simp only [writeBody,type]
    exact ⟨[],.pure,rfl⟩

/-- The bytes that go down for a message: the buffer of the serialiser, then the payload of a PUBLISH. -/
def serialise (message : Message) : Except SerialiserFailure (List UInt8) := do
  let size ← serialiserSize message
  let buffer ← serialiserWrite message
    (.makeEmptyDescAlloc (UInt32.ofNat (size.msgLen - size.publishPayloadLen))) size.remainingLen
  return buffer.data ++ (if message.common.type = .publish then bytesOf message.publish.content else [])

theorem getRemainingLengthBytes_eq {n : Nat} (bound : n ≤ 268435455) :
    getRemainingLengthBytes n = (Base128.encode n).length := by
  have step {m : Nat} (large : 128 ≤ m) :
      (Base128.encode m).length = (Base128.encode (m / 128)).length + 1 := by
    rw [Base128.encode_of_ge large,List.length_cons]
  have last {m : Nat} (small : m < 128) : (Base128.encode m).length = 1 := by
    rw [Base128.encode_of_lt small,List.length_singleton]
  rw [getRemainingLengthBytes]
  split
  · rw [last (by omega)]
  · rw [step (by omega)]
    split
    · rw [last (by omega)]
    · rw [step (by omega)]
      split
      · rw [last (by omega)]
      · rw [step (by omega),last (by omega)]

private theorem payload_sent (matching : body.Matches message.common) (carries : Carries message body) :
    (if message.common.type = .publish then bytesOf message.publish.content else []) = payloadOf body := by
  have none_sent {type : MqttType} (known : message.common.type = type) (other : type ≠ .publish) :
      (if message.common.type = .publish then bytesOf message.publish.content else []) = [] := by
    rw [if_neg (known ▸ other)]
  cases body with
  | publish topic id payload =>
    rw [if_pos matching.1,bytesOf,carries.2.2]
    rfl
  | connect c => exact none_sent matching (by decide)
  | connack unused returnCode => exact none_sent matching (by decide)
  | reply id => exact none_sent carries.1 (by decide)
  | subscribe id name qos => exact none_sent matching (by decide)
  | suback id status => exact none_sent matching (by decide)
  | empty => exact none_sent carries (by decide)

theorem serialiserSize_eq (matching : body.Matches message.common) (carries : Carries message body) :
    serialiserSize message = .ok ⟨1 + body.encode.length + getRemainingLengthBytes body.encode.length,
      body.encode.length,(payloadOf body).length⟩ := by
  rw [serialiserSize,bodySize_eq matching carries]
  rfl

/-- The size leaves exactly the room that the header takes. -/
theorem serialise_eq (matching : body.Matches message.common) (carries : Carries message body)
    (bound : body.encode.length ≤ 268435455) : serialise message =
      .ok (message.common.commonValue :: (Base128.encode body.encode.length ++ body.encode)) := by
  obtain ⟨written,writes,split⟩ := writeBody_writes matching carries
  have whole := (write8_writes message.common.commonValue).bind
    ((writeRemainingLength_writes body.encode.length).bind writes)
  have total := congrArg List.length split
  have digits := Base128.length_encode_le (n := body.encode.length) (k := 3) (by omega)
  rw [List.length_append] at total
  obtain ⟨room,hroom⟩ : ∃ room, UInt32.ofNat (1 + body.encode.length +
      getRemainingLengthBytes body.encode.length - (payloadOf body).length) = room := ⟨_,rfl⟩
  have enough : room.toNat = 1 + ((Base128.encode body.encode.length).length + written.length) := by
    rw [← hroom,getRemainingLengthBytes_eq bound,UInt32.toNat_ofNat']
    omega
  obtain ⟨out,done,data,_⟩ := whole (.makeEmptyDescAlloc room) (by
    rw [DataDesc.length_makeEmptyDescAlloc]
    simp only [List.length_append,List.length_singleton]
    exact (Nat.zero_add _).trans_le enough.ge)
  have wrote : serialiserWrite message (.makeEmptyDescAlloc room) body.encode.length = .ok out := done
  rw [serialise,serialiserSize_eq matching carries]
  change (serialiserWrite message (.makeEmptyDescAlloc (UInt32.ofNat _)) _ >>= _) = _
  rw [hroom,wrote]
  refine congrArg Except.ok ?_
  rw [payload_sent matching carries,data]
  simp [DataDesc.makeEmptyDescAlloc,split]

end Bodies

end XivelyClient.Mqtt.Serialiser

namespace XivelyClient.Mqtt
open Wire Serialiser ParserExecute

section Messages

variable {message : Message} {body : Body}

/-- What a message tells in its type. An absent string tells the same as an empty one. -/
inductive Fields
  | connect (protocolName : List UInt8) (protocolVersion flagsValue : UInt8) (keepalive : UInt16)
      (clientId willTopic willMessage username password : List UInt8)
  | connack (unused returnCode : UInt8)
  | publish (topicName : List UInt8) (messageId : UInt16) (content : List UInt8)
  | reply (messageId : UInt16)
  | topics (messageId : UInt16) (topics : Option (List UInt8 × UInt8))
  | empty
  deriving DecidableEq, Repr

def topicsFields (topics : Topics) : Fields :=
  .topics topics.messageId (topics.topics.map fun pair => (bytesOf pair.name,pair.payload))

def fields (message : Message) : Fields :=
  match message.common.type with
  | .connect => .connect (bytesOf message.connect.protocolName) message.connect.protocolVersion
      message.connect.flagsValue message.connect.keepalive (bytesOf message.connect.clientId)
      (bytesOf message.connect.willTopic) (bytesOf message.connect.willMessage)
      (bytesOf message.connect.username) (bytesOf message.connect.password)
  | .connack => .connack message.connack.unused message.connack.returnCode
  | .publish => .publish (bytesOf message.publish.topicName) message.publish.messageId
      (bytesOf message.publish.content)
  | .puback => .reply message.puback.messageId
  | .pubrec => .reply message.pubrec.messageId
  | .pubrel => .reply message.pubrel.messageId
  | .pubcomp => .reply message.pubcomp.messageId
  | .subscribe => topicsFields message.subscribe
  | .suback => topicsFields message.suback
  | .unsuback => .reply message.unsuback.messageId
  | _ => .empty

def Small (desc : Option DataDesc) : Prop := (bytesOf desc).length ≤ 65535

/-- A CONNECT whose flags agree with the strings that are there. -/
structure EncodableConnect (connect : Connect) : Prop where
  protocolName : bytesOf connect.protocolName = [0x4D,0x51,0x54,0x54]
  clientId : Small connect.clientId
  willTopic : Small connect.willTopic
  willMessage : Small connect.willMessage
  username : Small connect.username
  password : Small connect.password
  willTopicAgrees : connect.willTopic.isSome = connect.will
  willMessageAgrees : connect.willMessage.isSome = connect.will
  usernameAgrees : connect.username.isSome = connect.usernameFollows
  passwordAgrees : connect.password.isSome = connect.passwordFollows

/-- A message that the serialiser can write whole, in a type that the parser reads too. -/
def Encodable (message : Message) : Prop :=
  match message.common.type with
  | .connect => EncodableConnect message.connect
  | .connack | .puback | .disconnect => True
  | .publish => message.publish.topicName.isSome ∧ Small message.publish.topicName ∧
      message.publish.content.isSome ∧ (message.common.qos = 0 → message.publish.messageId = 0)
  | .subscribe => ∃ pair, message.subscribe.topics = some pair ∧ pair.name.isSome ∧ Small pair.name
  | .suback => ∃ pair, message.suback.topics = some pair ∧ pair.name = none ∧
      (pair.payload = 0x00 ∨ pair.payload = 0x01 ∨ pair.payload = 0x02 ∨ pair.payload = 0x80)
  | _ => False

/-- The string in a descriptor. -/
private theorem text_of_small {desc : Option DataDesc} (small : Small desc) :
    ∃ s : Text, bytesOf desc = s.val := ⟨⟨bytesOf desc,Nat.lt_succ_of_le small⟩,rfl⟩

private theorem holds_of_small {desc : Option DataDesc} (small : Small desc) :
    ∃ s : Option Text, Holds desc s ∧ s.isSome = desc.isSome := by
  cases desc with
  | none => exact ⟨none,rfl,rfl⟩
  | some desc => exact ⟨some ⟨desc.data,Nat.lt_succ_of_le small⟩,rfl,rfl⟩

private theorem carriesConnect {connect : Connect} (encodable : EncodableConnect connect) :
    ∃ c : ConnectBody, CarriesConnect connect c ∧ c.protocolName.val.length = 4 := by
  obtain ⟨clientId,clientIdSame⟩ := text_of_small encodable.clientId
  obtain ⟨willTopic,topicHolds,topicAgrees⟩ := holds_of_small encodable.willTopic
  obtain ⟨willMessage,messageHolds,messageAgrees⟩ := holds_of_small encodable.willMessage
  obtain ⟨username,usernameHolds,usernameAgrees⟩ := holds_of_small encodable.username
  obtain ⟨password,passwordHolds,passwordAgrees⟩ := holds_of_small encodable.password
  refine ⟨⟨⟨[0x4D,0x51,0x54,0x54],by simp⟩,connect.protocolVersion,connect.flagsValue,connect.keepalive,
    clientId,willTopic,willMessage,username,password,topicAgrees.trans encodable.willTopicAgrees,
    messageAgrees.trans encodable.willMessageAgrees,usernameAgrees.trans encodable.usernameAgrees,
    passwordAgrees.trans encodable.passwordAgrees⟩,?_,rfl⟩
  exact ⟨encodable.protocolName,rfl,rfl,rfl,clientIdSame,topicHolds,messageHolds,usernameHolds,passwordHolds⟩

theorem body_of_encodable (encodable : Encodable message) :
    ∃ body : Body, body.Matches message.common ∧ body.Accepted ∧ Carries message body := by
  cases type : message.common.type with
  | connect =>
    simp only [Encodable,type] at encodable
    obtain ⟨c,carries,four⟩ := carriesConnect encodable
    exact ⟨.connect c,type,trivial,carries,four⟩
  | connack => exact ⟨.connack message.connack.unused message.connack.returnCode,type,trivial,rfl⟩
  | publish =>
    simp only [Encodable,type] at encodable
    obtain ⟨topicThere,small,contentThere,unset⟩ := encodable
    obtain ⟨topic,holds,there⟩ := holds_of_small small
    rw [topicThere] at there
    obtain ⟨topic,rfl⟩ := Option.isSome_iff_exists.mp there
    obtain ⟨content,held⟩ := Option.isSome_iff_exists.mp contentThere
    rcases Nat.eq_zero_or_pos message.common.qos with zero | positive
    · exact ⟨.publish topic none content.data,⟨type,by simp [zero]⟩,trivial,holds,unset zero,by rw [held]; rfl⟩
    · exact ⟨.publish topic (some message.publish.messageId) content.data,⟨type,by simp [positive]⟩,trivial,
        holds,rfl,by rw [held]; rfl⟩
  | puback => exact ⟨.reply message.puback.messageId,.inl type,trivial,type,rfl⟩
  | subscribe =>
    simp only [Encodable,type] at encodable
    obtain ⟨pair,found,nameThere,small⟩ := encodable
    obtain ⟨name,holds,there⟩ := holds_of_small small
    rw [nameThere] at there
    obtain ⟨name,rfl⟩ := Option.isSome_iff_exists.mp there
    exact ⟨.subscribe message.subscribe.messageId name pair.payload,type,trivial,rfl,pair,found,holds,rfl⟩
  | suback =>
    simp only [Encodable,type] at encodable
    obtain ⟨pair,found,nameless,accepted⟩ := encodable
    exact ⟨.suback message.suback.messageId pair.payload,type,accepted,rfl,pair,found,nameless,rfl⟩
  | disconnect => exact ⟨.empty,.inr type,trivial,type⟩
  | _ =>
    simp only [Encodable,type] at encodable

private theorem bytesOf_descOf (s : Text) : bytesOf (some (descOf s.val)) = s.val := by
  have small := s.property
  exact descOf_data s.val (by omega)

private theorem bytesOf_optional {desc : Option DataDesc} {s : Option Text} (holds : Holds desc s) :
    bytesOf (s.map (descOf ·.val)) = bytesOf desc := by
  cases s with
  | none =>
    rw [bytesOf,bytesOf,holds]
    rfl
  | some s => exact (bytesOf_descOf s).trans holds.bytesOf.symm

private theorem bytesOf_contentOf {payload : List UInt8} (small : payload.length ≤ 2 ^ 31) :
    bytesOf (contentOf payload) = payload := by
  rw [contentOf]
  split
  · rename_i empty
    rw [empty]
    rfl
  · exact descOf_data payload small

theorem decoded_common (common : Common) (body : Body) : (decoded common body).common = common := by
  cases body with
  | reply id =>
    rw [decoded]
    split <;> rfl
  | _ => rfl

theorem fields_decoded (matching : body.Matches message.common) (carries : Carries message body)
    (small : body.encode.length ≤ 268435455) (length : UInt32) :
    fields (decoded ⟨message.common.commonValue,length⟩ body) = fields message := by
  have known : (decoded ⟨message.common.commonValue,length⟩ body).common.type = message.common.type := by
    rw [decoded_common]
    rfl
  cases body with
  | connect c =>
    have type : message.common.type = .connect := matching
    obtain ⟨carries,_⟩ := carries
    simp only [fields,known,type]
    simp only [decoded,decodedConnect,bytesOf_descOf,bytesOf_optional carries.willTopic,
      bytesOf_optional carries.willMessage,bytesOf_optional carries.username,bytesOf_optional carries.password,
      carries.protocolName,carries.protocolVersion,carries.flagsValue,carries.keepalive,carries.clientId]
  | connack unused returnCode =>
    have type : message.common.type = .connack := matching
    have same : message.connack = ⟨unused,returnCode⟩ := carries
    simp only [fields,known,type,same]
    rfl
  | publish topic id payload =>
    have type : message.common.type = .publish := matching.1
    obtain ⟨holds,word,content⟩ := carries
    have whole := (publish_encode topic id payload []).2
    have held : bytesOf message.publish.content = payload := by
      rw [bytesOf,content]
      rfl
    simp only [fields,known,type]
    simp only [decoded,bytesOf_descOf,bytesOf_contentOf (show payload.length ≤ 2 ^ 31 by omega),word,held,
      holds.bytesOf]
  | reply id =>
    obtain ⟨type,word⟩ := carries
    have type' : Common.type ⟨message.common.commonValue,length⟩ = .puback := type
    simp only [fields,known,type,word]
    simp only [decoded,type']
  | subscribe id name qos =>
    have type : message.common.type = .subscribe := matching
    obtain ⟨word,pair,found,holds,rfl⟩ := carries
    simp only [fields,known,type,topicsFields,word,found]
    simp only [decoded,Option.map_some,bytesOf_descOf,holds.bytesOf]
  | suback id status =>
    have type : message.common.type = .suback := matching
    obtain ⟨word,pair,found,nameless,rfl⟩ := carries
    simp only [fields,known,type,topicsFields,word,found]
    simp only [decoded,Option.map_some,nameless]
  | empty =>
    have type : message.common.type = .disconnect := carries
    simp only [fields,known,type]

/-- Decoding undoes encoding: whatever follows the bytes of a message, and however all of it is cut, the
parser gives the message back and stops at the first byte that follows. The remaining length is the one
that was written; the message that went out need not have had it. -/
theorem decode_encode (message : Message) (encodable : Encodable message) (size : SerialiserSize)
    (sized : serialiserSize message = .ok size) (bound : size.remainingLen ≤ 268435455) (rest : List UInt8)
    (follows : rest ≠ []) (localState : XiState) :
    ∃ bytes, serialise message = .ok bytes ∧ ∀ chunks, Cut (bytes ++ rest) chunks →
      ∃ parser localState' message', parserRun parserInit localState {} chunks =
          .returned .ok parser localState' message' rest ∧ fields message' = fields message ∧
        message'.common = ⟨message.common.commonValue,UInt32.ofNat size.remainingLen⟩ := by
  obtain ⟨body,matching,accepted,carries⟩ := body_of_encodable encodable
  have computed := serialiserSize_eq matching carries
  rw [sized] at computed
  obtain rfl := Except.ok.inj computed
  have wire := serialise_eq matching carries bound
  have short : (Base128.encode body.encode.length).length ≤ 4 :=
    Base128.length_encode_le (n := body.encode.length) (k := 3) (Nat.lt_succ_of_le bound)
  have value := Base128.value_encode body.encode.length
  have matching' : body.Matches ⟨message.common.commonValue,
      UInt32.ofNat (Base128.value (Base128.encode body.encode.length))⟩ := by
    cases body <;> exact matching
  obtain ⟨packet,hpacket⟩ : ∃ packet : Packet, packet = ⟨message.common.commonValue,
      Base128.encode body.encode.length,body,Base128.digits_encode _,short,value,matching',accepted⟩ := ⟨_,rfl⟩
  have common : packet.common = ⟨message.common.commonValue,UInt32.ofNat body.encode.length⟩ := by
    rw [hpacket,Packet.common,value]
  have same : packet.body = body := by rw [hpacket]
  refine ⟨packet.bytes,?_,?_⟩
  · rw [wire,hpacket]
    rfl
  · intro chunks cut
    obtain ⟨parser,localState',run⟩ := packet.delivered cut localState (.inl follows)
    rw [common,same] at run
    exact ⟨parser,localState',_,run,fields_decoded matching carries bound _,decoded_common _ _⟩

/-- PUBLISH of "x" to the topic "a" at QoS 1, with another packet behind it. -/
theorem decode_encode_publish : ∃ bytes, serialise {
      common := {commonValue := 0x32}
      publish := ⟨some ⟨[0x61],1,.managed,by decide⟩,7,some ⟨[0x78],1,.managed,by decide⟩⟩} = .ok bytes ∧
    ∀ chunks, Cut (bytes ++ [0xC0]) chunks → ∃ parser localState' message',
      parserRun parserInit .ok {} chunks = .returned .ok parser localState' message' [0xC0] ∧
        fields message' = .publish [0x61] 7 [0x78] ∧ message'.common = ⟨0x32,6⟩ :=
  decode_encode _ (by simp [Encodable,Common.type,MqttType.ofBits,Small,bytesOf,Common.qos]) ⟨8,6,1⟩ rfl
    (by decide) [0xC0] (by decide) .ok

/-- A PUBACK comes back with the remaining length 2, which it did not have when it went out. -/
theorem puback_remainingLength :
    serialise {common := {commonValue := 0x40},puback := ⟨7⟩} = .ok [0x40,0x02,0x00,0x07] ∧
      ∃ parser localState message', parserRun parserInit .ok {} [[0x40,0x02,0x00,0x07,0x00]] =
          .returned .ok parser localState message' [0x00] ∧
        message'.common.remainingLength ≠
          (Message.mk {commonValue := 0x40} {} {} {} ⟨7⟩ {} {} {} {} {} {}).common.remainingLength := by
  constructor
  · have carries : Carries {common := {commonValue := 0x40},puback := ⟨7⟩} (.reply 7) := ⟨rfl,rfl⟩
    have matching : (Body.reply 7).Matches (Common.mk 0x40 0) := .inl rfl
    have wire := serialise_eq matching carries (by decide)
    rw [wire,Base128.encode_of_lt (by decide)]
    rfl
  · exact ⟨{digitBytes := 1,multiplier := 128,remainingLength := 2,dataLength := 4},.ok,
      {common := ⟨0x40,2⟩,puback := ⟨7⟩},by decide,by decide⟩

end Messages

end XivelyClient.Mqtt
