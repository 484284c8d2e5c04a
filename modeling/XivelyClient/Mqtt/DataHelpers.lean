import XivelyClient.Mqtt.Message

/-! The messages that the logic layer builds (`fill_with_*_data`), with every allocation succeeding. -/
namespace XivelyClient

namespace DataDesc

/-- The length of the bytes is a `size_t` that is stored in 32 bits. -/
def ofBytes (memoryType : MemoryType) (bytes : List UInt8) : DataDesc :=
  ⟨bytes.take (UInt32.ofNat bytes.length).toNat,UInt32.ofNat bytes.length,memoryType,by rw [List.length_take]; exact Nat.min_le_left _ _⟩

def makeDescFromStringCopy (str : List UInt8) : DataDesc := ofBytes .managed str
def makeDescFromStringShare (str : List UInt8) : DataDesc := ofBytes .unmanaged str
def makeDescFromBufferShare (buffer : List UInt8) : DataDesc := ofBytes .unmanaged buffer

end DataDesc

inductive SessionType
  | clean | continue
  deriving DecidableEq, Repr

namespace Mqtt
def maxPayloadSize : Nat := 128 * 1024

def fillWithPingreqData : Message := {common := {commonValue := Common.ofBits 0 0 0 .pingreq}}

def fillWithPubackData (msgId : UInt16) : Message :=
  {common := {commonValue := Common.ofBits 0 0 0 .puback},puback := ⟨msgId⟩}

def fillWithConnackData (returnCode : UInt8) : Message :=
  {common := {commonValue := Common.ofBits 0 0 0 .connack},connack := ⟨0,returnCode⟩}

/-- The flag bits of CONNECT, the reserved one lowest. -/
def connectFlags (cleanSession will : Bool) (willQos willRetain : Nat) (passwordFollows usernameFollows : Bool) :
    UInt8 :=
  UInt8.ofNat (cleanSession.toNat * 2 + will.toNat * 4 + willQos % 4 * 8 + willRetain % 2 * 32 +
    passwordFollows.toNat * 64 + usernameFollows.toNat * 128)

/-- The client id is the user name. -/
def fillWithConnectData (username password : Option (List UInt8)) (keepaliveTimeout : UInt16)
    (sessionType : SessionType) (willTopic willMessage : Option (List UInt8)) (willQos willRetain : Nat) :
    Except XiState Message :=
  let usernameFollows := username.isSome
  let passwordFollows := usernameFollows && password.isSome
  let connect : Connect := {
    protocolName := some (.makeDescFromStringCopy [0x4D,0x51,0x54,0x54])
    protocolVersion := 4
    keepalive := keepaliveTimeout
    clientId := username.map .makeDescFromStringCopy
    username := username.map .makeDescFromStringCopy
    password := if passwordFollows then password.map .makeDescFromStringCopy else none}
  let common : Common := {commonValue := Common.ofBits 0 0 0 .connect}
  let cleanSession := decide (sessionType = .clean)
  match willTopic,willMessage with
  | some _,none => .error .nullWillMessage
  | none,some _ => .error .nullWillTopic
  | some willTopic,some willMessage =>
    .ok {
      common := common
      connect := {connect with
        flagsValue := connectFlags cleanSession true willQos willRetain passwordFollows usernameFollows
        willTopic := some (.makeDescFromStringCopy willTopic)
        willMessage := some (.makeDescFromStringCopy willMessage)}}
  | none,none =>
    .ok {
      common := common
      connect := {connect with flagsValue := connectFlags cleanSession false 0 0 passwordFollows usernameFollows}}

/-- A NULL topic makes no descriptor, which is taken for a lack of memory. -/
def fillWithPublishData (topic : Option (List UInt8)) (content : DataDesc) (qos retain dup : Nat) (id : UInt16) :
    Except XiState Message :=
  if maxPayloadSize < content.length then .error .mqttPayloadSizeTooLarge
  else
    match topic with
    | none => .error .outOfMemory
    | some topic =>
      .ok {
        common := {commonValue := Common.ofBits retain qos dup .publish}
        publish := {
          topicName := some (.makeDescFromStringShare topic)
          messageId := id
          content := some (.makeDescFromBufferShare content.data)}}

def fillWithSubscribeData (topic : Option (List UInt8)) (msgId : UInt16) (qos : UInt8) (dup : Nat) :
    Except XiState Message :=
  match topic with
  | none => .error .outOfMemory
  | some topic =>
    .ok {
      common := {commonValue := Common.ofBits 0 1 dup .subscribe}
      subscribe := ⟨msgId,some ⟨some (.makeDescFromStringCopy topic),qos⟩⟩}

def fillWithDisconnectData : Message := {common := {commonValue := Common.ofBits 0 0 0 .disconnect}}

/-- The messages that come out of the helpers. -/
inductive Built : Message → Prop
  | pingreq : Built fillWithPingreqData
  | puback (msgId : UInt16) : Built (fillWithPubackData msgId)
  | connack (returnCode : UInt8) : Built (fillWithConnackData returnCode)
  | connect (username password : Option (List UInt8)) (keepaliveTimeout : UInt16) (sessionType : SessionType)
    (willTopic willMessage : Option (List UInt8)) (willQos willRetain : Nat) (message : Message)
    (filled : fillWithConnectData username password keepaliveTimeout sessionType willTopic willMessage willQos
      willRetain = .ok message) : Built message
  | publish (topic : Option (List UInt8)) (content : DataDesc) (qos retain dup : Nat) (id : UInt16)
    (message : Message) (filled : fillWithPublishData topic content qos retain dup id = .ok message) : Built message
  | subscribe (topic : Option (List UInt8)) (msgId : UInt16) (qos : UInt8) (dup : Nat) (message : Message)
    (filled : fillWithSubscribeData topic msgId qos dup = .ok message) : Built message
  | disconnect : Built fillWithDisconnectData

end Mqtt

end XivelyClient
