import XivelyClient.DataDesc

/-! MQTT control packets (`xi_mqtt_message_t`). The union's members are kept side by side;
the code only looks at the member that the type bits of the first byte select. A message
from the allocator is all zero, which is the default of every field here. -/
namespace XivelyClient.Mqtt

/-- The packet types; `reserved` is the value 15, which the enumeration leaves out. -/
inductive MqttType
  | none | connect | connack | publish | puback | pubrec | pubrel | pubcomp | subscribe | suback
  | unsubscribe | unsuback | pingreq | pingresp | disconnect | reserved
  deriving DecidableEq, Repr

namespace MqttType

def ofBits : Nat → MqttType
  | 0 => .none | 1 => .connect | 2 => .connack | 3 => .publish | 4 => .puback | 5 => .pubrec
  | 6 => .pubrel | 7 => .pubcomp | 8 => .subscribe | 9 => .suback | 10 => .unsubscribe
  | 11 => .unsuback | 12 => .pingreq | 13 => .pingresp | 14 => .disconnect | _ => .reserved

def toBits (type : MqttType) : Nat := type.ctorIdx

theorem ofBits_toBits (type : MqttType) : ofBits type.toBits = type := by cases type <;> rfl

end MqttType

inductive MessageClass
  | unknown | toServer | fromServer
  deriving DecidableEq, Repr

/-- `common_bits`: retain is bit 0, qos bits 1 and 2, dup bit 3, the type bits 4 to 7. -/
structure Common where
  commonValue : UInt8 := 0
  remainingLength : UInt32 := 0
  deriving DecidableEq, Repr

namespace Common

def retain (common : Common) : Nat := common.commonValue.toNat % 2
def qos (common : Common) : Nat := common.commonValue.toNat / 2 % 4
def dup (common : Common) : Nat := common.commonValue.toNat / 8 % 2
def type (common : Common) : MqttType := .ofBits (common.commonValue.toNat / 16)

/-- The first byte with the given bit fields. -/
def ofBits (retain qos dup : Nat) (type : MqttType) : UInt8 :=
  UInt8.ofNat (retain % 2 + qos % 4 * 2 + dup % 2 * 8 + type.toBits * 16)

end Common

structure Connect where
  protocolName : Option DataDesc := .none
  protocolVersion : UInt8 := 0
  flagsValue : UInt8 := 0
  keepalive : UInt16 := 0
  clientId : Option DataDesc := .none
  willTopic : Option DataDesc := .none
  willMessage : Option DataDesc := .none
  username : Option DataDesc := .none
  password : Option DataDesc := .none
  deriving DecidableEq, Repr

namespace Connect

def cleanSession (connect : Connect) : Bool := connect.flagsValue.toNat.testBit 1
def will (connect : Connect) : Bool := connect.flagsValue.toNat.testBit 2
def passwordFollows (connect : Connect) : Bool := connect.flagsValue.toNat.testBit 6
def usernameFollows (connect : Connect) : Bool := connect.flagsValue.toNat.testBit 7

end Connect

structure Connack where
  unused : UInt8 := 0
  returnCode : UInt8 := 0
  deriving DecidableEq, Repr

structure Publish where
  topicName : Option DataDesc := .none
  messageId : UInt16 := 0
  content : Option DataDesc := .none
  deriving DecidableEq, Repr

/-- The packets that carry a message id only. -/
structure Reply where
  messageId : UInt16 := 0
  deriving DecidableEq, Repr

/-- `payload` is the union of the requested QoS and the SUBACK status. -/
structure TopicPair where
  name : Option DataDesc := .none
  payload : UInt8 := 0
  deriving DecidableEq, Repr

/-- SUBSCRIBE and SUBACK; both members of the union have this layout. -/
structure Topics where
  messageId : UInt16 := 0
  topics : Option TopicPair := .none
  deriving DecidableEq, Repr

@[ext] structure Message where
  common : Common := {}
  connect : Connect := {}
  connack : Connack := {}
  publish : Publish := {}
  puback : Reply := {}
  pubrec : Reply := {}
  pubrel : Reply := {}
  pubcomp : Reply := {}
  subscribe : Topics := {}
  suback : Topics := {}
  unsuback : Reply := {}
  deriving DecidableEq, Repr

def getMessageId (msg : Message) : UInt16 :=
  match msg.common.type with
  | .publish => msg.publish.messageId
  | .puback => msg.puback.messageId
  | .pubrec => msg.pubrec.messageId
  | .pubrel => msg.pubrel.messageId
  | .pubcomp => msg.pubcomp.messageId
  | .subscribe => msg.subscribe.messageId
  | .suback => msg.suback.messageId
  | .unsuback => msg.unsuback.messageId
  | _ => 0

def classMsgTypeReceiving : MqttType → MessageClass
  | .publish | .pubrel => .fromServer
  | .puback | .pubrec | .pubcomp | .suback | .unsuback | .pingresp => .toServer
  | _ => .unknown

def classMsgTypeSending : MqttType → MessageClass
  | .puback | .pubrec | .pubcomp => .fromServer
  | .publish | .pubrel | .subscribe | .unsubscribe | .pingreq | .disconnect => .toServer
  | _ => .unknown

namespace Common

private theorem bits_lt (retain qos dup : Nat) (type : MqttType) :
    retain % 2 + qos % 4 * 2 + dup % 2 * 8 + type.toBits * 16 < 256 := by
  have : type.toBits < 16 := by cases type <;> decide
  omega

theorem ofBits_toNat (retain qos dup : Nat) (type : MqttType) :
    (ofBits retain qos dup type).toNat = retain % 2 + qos % 4 * 2 + dup % 2 * 8 + type.toBits * 16 := by
  rw [ofBits,UInt8.toNat_ofNat',Nat.mod_eq_of_lt (bits_lt retain qos dup type)]

@[simp] theorem type_ofBits (retain qos dup : Nat) (type : MqttType) (length : UInt32) :
    (Common.mk (ofBits retain qos dup type) length).type = type := by
  rw [Common.type,ofBits_toNat,show (retain % 2 + qos % 4 * 2 + dup % 2 * 8 + type.toBits * 16) / 16 =
    type.toBits by omega,MqttType.ofBits_toBits]

@[simp] theorem qos_ofBits (retain qos dup : Nat) (type : MqttType) (length : UInt32) :
    (Common.mk (ofBits retain qos dup type) length).qos = qos % 4 := by
  rw [Common.qos,ofBits_toNat]
  omega

@[simp] theorem dup_ofBits (retain qos dup : Nat) (type : MqttType) (length : UInt32) :
    (Common.mk (ofBits retain qos dup type) length).dup = dup % 2 := by
  rw [Common.dup,ofBits_toNat]
  omega

@[simp] theorem retain_ofBits (retain qos dup : Nat) (type : MqttType) (length : UInt32) :
    (Common.mk (ofBits retain qos dup type) length).retain = retain % 2 := by
  rw [Common.retain,ofBits_toNat]
  omega

end Common

end XivelyClient.Mqtt
