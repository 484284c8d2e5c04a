import XivelyClient.Lib.Base128
import XivelyClient.Mqtt.Message

/-! Packets as MQTT lays them out, for the types the parser supports: what a body is made
of and which bytes it stands for. Nothing here is taken from the parser or the serialiser. -/
namespace XivelyClient.Mqtt.Wire

/-- A string whose length goes into two bytes. -/
abbrev Text := {s : List UInt8 // s.length < 65536}

def be16 (v : Nat) : List UInt8 := [UInt8.ofNat (v / 256),UInt8.ofNat (v % 256)]

def text (s : Text) : List UInt8 := be16 s.val.length ++ s.val

def optionalText (s : Option Text) : List UInt8 := (s.map text).getD []

/-- A CONNECT body; its flags tell which of the strings follow. -/
structure ConnectBody where
  protocolName : Text
  protocolVersion : UInt8
  flagsValue : UInt8
  keepalive : UInt16
  clientId : Text
  willTopic : Option Text
  willMessage : Option Text
  username : Option Text
  password : Option Text
  willTopicAgrees : willTopic.isSome = flagsValue.toNat.testBit 2
  willMessageAgrees : willMessage.isSome = flagsValue.toNat.testBit 2
  usernameAgrees : username.isSome = flagsValue.toNat.testBit 7
  passwordAgrees : password.isSome = flagsValue.toNat.testBit 6

inductive Body
  | connect (body : ConnectBody)
  | connack (unused returnCode : UInt8)
  | publish (topic : Text) (messageId : Option UInt16) (payload : List UInt8)
  | reply (messageId : UInt16)
  | subscribe (messageId : UInt16) (name : Text) (qos : UInt8)
  | suback (messageId : UInt16) (status : UInt8)
  | empty

namespace ConnectBody

def fixed (c : ConnectBody) : List UInt8 :=
  text c.protocolName ++ [c.protocolVersion,c.flagsValue] ++ be16 c.keepalive.toNat

def encode (c : ConnectBody) : List UInt8 :=
  c.fixed ++ (text c.clientId ++ (optionalText c.willTopic ++ (optionalText c.willMessage ++
    (optionalText c.username ++ optionalText c.password))))

/-- The string the body ends with. -/
def lastText (c : ConnectBody) : Text :=
  c.password.getD (c.username.getD (c.willMessage.getD c.clientId))

end ConnectBody

namespace Body

def encode : Body → List UInt8
  | .connect c => c.encode
  | .connack unused returnCode => [unused,returnCode]
  | .publish topic messageId payload =>
    text topic ++ ((messageId.map fun id => be16 id.toNat).getD [] ++ payload)
  | .reply messageId => be16 messageId.toNat
  | .subscribe messageId name qos => be16 messageId.toNat ++ (text name ++ [qos])
  | .suback messageId status => be16 messageId.toNat ++ [status]
  | .empty => []

/-- A body belongs to a first byte: to its type, and for a PUBLISH to its QoS too. -/
def Matches (common : Common) : Body → Prop
  | .connect _ => common.type = .connect
  | .connack _ _ => common.type = .connack
  | .publish _ messageId _ => common.type = .publish ∧ messageId.isSome = decide (0 < common.qos)
  | .reply _ => common.type = .puback ∨ common.type = .pubrec ∨ common.type = .pubrel ∨
      common.type = .pubcomp
  | .subscribe _ _ _ => common.type = .subscribe
  | .suback _ _ => common.type = .suback
  | .empty => common.type = .pingresp ∨ common.type = .disconnect

/-- A SUBACK answers with a granted QoS or with the failure code. -/
def Accepted : Body → Prop
  | .suback _ status => status = 0x00 ∨ status = 0x01 ∨ status = 0x02 ∨ status = 0x80
  | _ => True

end Body

/-- The types the parser reads. -/
def Supported (type : MqttType) : Prop :=
  type ≠ .none ∧ type ≠ .unsubscribe ∧ type ≠ .unsuback ∧ type ≠ .pingreq ∧ type ≠ .reserved

/-- `bytes` is a whole body for this first byte. -/
def Fits (common : Common) (bytes : List UInt8) : Prop :=
  ∃ body : Body, body.Matches common ∧ bytes = body.encode

/-- A packet's first byte, the digits of its remaining length, and what follows. -/
structure Header (src : List UInt8) where
  first : UInt8
  digits : List UInt8
  tail : List UInt8
  split : src = first :: (digits ++ tail)
  valid : Base128.Digits digits
  short : digits.length ≤ 4

def Header.remainingLength {src : List UInt8} (header : Header src) : Nat := Base128.value header.digits

/-- What the parser has of the first byte when it comes to the body. -/
def Header.common {src : List UInt8} (header : Header src) : Common :=
  ⟨header.first,UInt32.ofNat header.remainingLength⟩

theorem Header.remainingLength_le {src : List UInt8} (header : Header src) :
    header.remainingLength ≤ 268435455 := by
  have bound := header.valid.value_lt
  have power : 128 ^ header.digits.length ≤ 128 ^ 4 := Nat.pow_le_pow_right (by omega) header.short
  simp only [Header.remainingLength]
  omega

/-- Bytes begin with one fixed header at most. -/
theorem Header.unique {src : List UInt8} (header header' : Header src) : header = header' := by
  obtain ⟨first,digits,tail,split,valid,short⟩ := header
  obtain ⟨first',digits',tail',split',valid',short'⟩ := header'
  obtain ⟨rfl,same⟩ := List.cons.inj (split.symm.trans split')
  obtain ⟨rfl,rfl⟩ := valid.append_inj valid' same
  rfl

theorem Header.ne_nil {src : List UInt8} (header : Header src) : src ≠ [] := by
  rw [header.split]
  simp

theorem be16_length (v : Nat) : (be16 v).length = 2 := rfl

theorem text_length (s : Text) : (text s).length = 2 + s.val.length := by
  simp [text,be16_length]

theorem text_ne_nil (s : Text) : text s ≠ [] := by
  simp [text,be16]

end XivelyClient.Mqtt.Wire
