import XivelyClient.Mqtt.Message

/-! The packet serialiser (`xi_mqtt_serialiser_size`, `xi_mqtt_serialiser_write`). The
payload of a PUBLISH counts in the size but is not written: the codec layer sends it
behind the header. -/
namespace XivelyClient.Mqtt

/-- How the serialiser gives up: an error return, or a NULL pointer that it follows. -/
inductive SerialiserFailure
  | error | nullPointer
  deriving DecidableEq, Repr

/-- The out parameters `msg_len`, `remaining_len` and `publish_payload_len`. -/
structure SerialiserSize where
  msgLen : Nat
  remainingLen : Nat
  publishPayloadLen : Nat
  deriving DecidableEq, Repr

/-- Beyond four digits an assertion fails; without assertions the answer is 0. -/
def getRemainingLengthBytes (remainingLength : Nat) : Nat :=
  if remainingLength ≤ 127 then 1
  else if remainingLength ≤ 16383 then 2
  else if remainingLength ≤ 2097151 then 3
  else if remainingLength ≤ 268435455 then 4
  else 0

namespace Serialiser

/-- `desc->length` without a test of the pointer. -/
def lengthOf : Option DataDesc → Except SerialiserFailure Nat
  | none => .error .nullPointer
  | some desc => .ok desc.length

def pairOf : Option TopicPair → Except SerialiserFailure TopicPair
  | none => .error .nullPointer
  | some pair => .ok pair

def connectSize (connect : Connect) : Except SerialiserFailure Nat := do
  let clientId := (connect.clientId.map DataDesc.length).getD 0
  let username ← if connect.usernameFollows then (2 + ·) <$> lengthOf connect.username else pure 0
  let password ← if connect.passwordFollows then (2 + ·) <$> lengthOf connect.password else pure 0
  let will ←
    if connect.will then do
      let topic ← lengthOf connect.willTopic
      let message ← lengthOf connect.willMessage
      pure (4 + topic + message)
    else pure 0
  return 6 + 1 + 1 + 2 + 2 + clientId + username + password + will

/-- The bytes behind the fixed header, and how many of them are PUBLISH payload. -/
def bodySize (message : Message) : Except SerialiserFailure (Nat × Nat) :=
  match message.common.type with
  | .connect => do
    let size ← connectSize message.connect
    return (size,0)
  | .connack => return (2,0)
  | .publish => do
    let topic ← lengthOf message.publish.topicName
    let content ← lengthOf message.publish.content
    return (2 + topic + (if 0 < message.common.qos then 2 else 0) + content,content)
  | .puback => return (2,0)
  | .disconnect => return (0,0)
  | .subscribe => do
    let pair ← pairOf message.subscribe.topics
    let name ← lengthOf pair.name
    return (2 + 2 + name + 1,0)
  | .suback => return (2 + 1,0)
  | .pingreq => return (0,0)
  | _ => throw .error

def write8 (out : DataDesc) (byte : UInt8) : Except SerialiserFailure DataDesc :=
  match out.appendByte byte with
  | (.ok,out') => .ok out'
  | _ => .error .error

def write16 (out : DataDesc) (value : Nat) : Except SerialiserFailure DataDesc := do
  let out ← write8 out (UInt8.ofNat (value >>> 8))
  write8 out (UInt8.ofNat (value &&& 0xFF))

/-- The length goes out as 16 bits whatever it is; an absent string is written as an empty one. -/
def writeString (out : DataDesc) : Option DataDesc → Except SerialiserFailure DataDesc
  | none => write16 out 0
  | some str => do
    let out ← write16 out str.length
    match out.appendData (some str) with
    | (.ok,out') => .ok out'
    | _ => .error .error

/-- Seven bits a byte, the low ones first, with the top bit set while more follow. -/
def writeRemainingLength (out : DataDesc) (remaining : Nat) : Except SerialiserFailure DataDesc := do
  let value := remaining &&& 0x7f
  let left := remaining >>> 7
  let out ← write8 out (UInt8.ofNat (value ||| (if 0 < left then 0x80 else 0)))
  if 0 < left then writeRemainingLength out left else return out
termination_by remaining
decreasing_by
  rename_i more
  simp only [left,Nat.shiftRight_eq_div_pow] at more ⊢
  omega

def writeConnect (out : DataDesc) (connect : Connect) : Except SerialiserFailure DataDesc := do
  let out ← writeString out connect.protocolName
  let out ← write8 out connect.protocolVersion
  let out ← write8 out connect.flagsValue
  let out ← write16 out connect.keepalive.toNat
  let out ← writeString out connect.clientId
  let out ←
    if connect.will then do
      let out ← writeString out connect.willTopic
      writeString out connect.willMessage
    else pure out
  let out ← if connect.usernameFollows then writeString out connect.username else pure out
  if connect.passwordFollows then writeString out connect.password else pure out

def writeBody (out : DataDesc) (message : Message) : Except SerialiserFailure DataDesc :=
  match message.common.type with
  | .connect => writeConnect out message.connect
  | .connack => do
    let out ← write8 out message.connack.unused
    write8 out message.connack.returnCode
  | .publish => do
    let out ← writeString out message.publish.topicName
    if 0 < message.common.qos then write16 out message.publish.messageId.toNat else pure out
  | .puback => write16 out message.puback.messageId.toNat
  | .subscribe => do
    let out ← write16 out message.subscribe.messageId.toNat
    let pair ← pairOf message.subscribe.topics
    let out ← writeString out pair.name
    write8 out pair.payload
  | .suback => do
    -- the source names the SUBSCRIBE member here, which lies over the SUBACK one
    let out ← write16 out message.suback.messageId.toNat
    let pair ← pairOf message.suback.topics
    write8 out pair.payload
  | .disconnect => pure out
  | .pingreq => pure out
  | _ => throw .error

end Serialiser

open Serialiser

def serialiserSize (message : Message) : Except SerialiserFailure SerialiserSize := do
  let (body,payload) ← bodySize message
  return ⟨1 + body + getRemainingLengthBytes body,body,payload⟩

def serialiserWrite (message : Message) (buffer : DataDesc) (remainingLen : Nat) :
    Except SerialiserFailure DataDesc := do
  let buffer ← write8 buffer message.common.commonValue
  let buffer ← writeRemainingLength buffer remainingLen
  writeBody buffer message

end XivelyClient.Mqtt
