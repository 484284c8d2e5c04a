import XivelyClient.Lib.Resumable
import XivelyClient.Mqtt.Message

/-! The incremental packet parser (`xi_mqtt_parser_execute`), one label for each of its
yields. The source buffer is its list of unread bytes. Between two labels the code
is one block; a block is written in front of the block it runs into. -/
namespace XivelyClient.Mqtt.ParserExecute
open Resumable

inductive MqttError
  | none | parserInvalidState | parserInvalidRemainingLength | parserInvalidMessageId
  | serialiserInvalidMessageId
  deriving DecidableEq, Repr

/-- Where `xi_mqtt_parser_execute` goes on; `start` stands for every value that is no line of a yield. -/
inductive Cs
  | start | firstByte | remainingLength
  | connectProtocolName | connectProtocolVersion | connectFlags | connectKeepalive | connectKeepaliveLow
  | connectClientId | connectWillTopic | connectWillMessage | connectUsername | connectPassword
  | connackUnused | connackReturnCode
  | publish | publishTopicName | publishMessageId | publishMessageIdLow | publishContent
  | puback | pubackLow | pubrec | pubrecLow | pubrel | pubrelLow | pubcomp | pubcompLow
  | subscribe | subscribeLow | subscribeTopics | subscribeName | subscribeQos
  | suback | subackLow | subackStatus
  deriving DecidableEq, Repr

/-- Where `read_string` and `read_data` go on. -/
inductive ReadCs
  | start | stringHigh | stringLow | stringBody | stringCopy | dataBody | dataCopy
  deriving DecidableEq, Repr

/-- The fields of `xi_mqtt_parser_t` beside the two labels. -/
structure Registers where
  error : MqttError := .none
  digitBytes : Nat := 0
  multiplier : Nat := 0
  remainingLength : Nat := 0
  strLength : Nat := 0
  dataLength : Nat := 0
  deriving DecidableEq, Repr

/-- What one activation works on; `localState` is the static local of the function. -/
structure Frame where
  localState : XiState
  readCs : ReadCs
  regs : Registers
  message : Message
  deriving DecidableEq, Repr

/-- Subtraction of `size_t`, 64 bits wide. -/
def subSize (a b : Nat) : Nat := (a + 2 ^ 64 - b) % 2 ^ 64

section Reading

/-- The parser's registers and the descriptor `*dst` that is being filled. -/
abbrev Reading := Registers × Option DataDesc

def dstDesc (dst : Option DataDesc) : DataDesc := dst.getD (.makeEmptyDescAlloc 4)

/-- `read_string` counts the copied bytes in `data_length`, `read_data` does not. -/
def countCopied (counted : Bool) (regs : Registers) (n : Nat) : Registers :=
  if counted then {regs with dataLength := regs.dataLength + n} else regs

@[simp] theorem countCopied_strLength (counted : Bool) (regs : Registers) (n : Nat) :
    (countCopied counted regs n).strLength = regs.strLength := by cases counted <;> rfl

theorem countCopied_add (counted : Bool) (regs : Registers) (n m : Nat) :
    countCopied counted (countCopied counted regs n) m = countCopied counted regs (n + m) := by
  cases counted
  · rfl
  · simp only [countCopied,if_true,Nat.add_assoc]

/-- The copy loop. It runs once in an activation, for it yields as soon as something is missing. -/
def copyLoop (again : ReadCs) (counted : Bool) : Block ReadCs Reading UInt8 XiState :=
  fun (regs,dst) src =>
    let desc := dstDesc dst
    let toRead := subSize regs.strLength desc.length
    if toRead = 0 then .done .ok (regs,some desc) src
    else
      let lenToRead := min toRead src.length
      match desc.appendDataResize true (src.take lenToRead) with
      | none => .fault
      | some (.ok,desc') =>
        let regs := countCopied counted regs lenToRead
        if toRead - lenToRead = 0 then .done .ok (regs,some desc') (src.drop lenToRead)
        else .more again (regs,some desc')
      | some (state,desc') => .done state (regs,some desc') src

def stringBody : Block ReadCs Reading UInt8 XiState := copyLoop .stringCopy true

def stringLow : Block ReadCs Reading UInt8 XiState :=
  next (fun (regs,dst) b => ({regs with
    strLength := regs.strLength + b.toNat,dataLength := regs.dataLength + 1},some (dstDesc dst)))
    (yieldOn .stringBody stringBody)

def stringHigh : Block ReadCs Reading UInt8 XiState :=
  next (fun (regs,dst) b => ({regs with
    strLength := b.toNat <<< 8,dataLength := regs.dataLength + 1},some (dstDesc dst)))
    (yieldOn .stringLow stringLow)

/-- A missing destination is allocated on entry, before the label is looked at. -/
def readString : ReadCs → Block ReadCs Reading UInt8 XiState
  | .stringHigh => stringHigh
  | .stringLow => stringLow
  | .stringBody => stringBody
  | .stringCopy => copyLoop .stringCopy true
  | _ => assign (fun (regs,dst) => (regs,some (dstDesc dst))) (yieldOn .stringHigh stringHigh)

def dataBody : Block ReadCs Reading UInt8 XiState := copyLoop .dataCopy false

def readData : ReadCs → Block ReadCs Reading UInt8 XiState
  | .dataBody => dataBody
  | .dataCopy => copyLoop .dataCopy false
  | _ => assign (fun (regs,dst) => (regs,some (dstDesc dst))) (yieldOn .dataBody dataBody)

end Reading

/-- A descriptor field of the message, as the pointer to it that the readers are given. -/
structure Slot where
  get : Message → Option DataDesc
  set : Message → Option DataDesc → Message
  get_set : ∀ m d, get (set m d) = d
  set_set : ∀ m d e, set (set m d) e = set m e

attribute [simp] Slot.get_set Slot.set_set

namespace Slot

def protocolName : Slot := ⟨(·.connect.protocolName),
  fun m d => {m with connect := {m.connect with protocolName := d}},fun _ _ => rfl,fun _ _ _ => rfl⟩
def clientId : Slot := ⟨(·.connect.clientId),
  fun m d => {m with connect := {m.connect with clientId := d}},fun _ _ => rfl,fun _ _ _ => rfl⟩
def willTopic : Slot := ⟨(·.connect.willTopic),
  fun m d => {m with connect := {m.connect with willTopic := d}},fun _ _ => rfl,fun _ _ _ => rfl⟩
def willMessage : Slot := ⟨(·.connect.willMessage),
  fun m d => {m with connect := {m.connect with willMessage := d}},fun _ _ => rfl,fun _ _ _ => rfl⟩
def username : Slot := ⟨(·.connect.username),
  fun m d => {m with connect := {m.connect with username := d}},fun _ _ => rfl,fun _ _ _ => rfl⟩
def password : Slot := ⟨(·.connect.password),
  fun m d => {m with connect := {m.connect with password := d}},fun _ _ => rfl,fun _ _ _ => rfl⟩
def topicName : Slot := ⟨(·.publish.topicName),
  fun m d => {m with publish := {m.publish with topicName := d}},fun _ _ => rfl,fun _ _ _ => rfl⟩
def content : Slot := ⟨(·.publish.content),
  fun m d => {m with publish := {m.publish with content := d}},fun _ _ => rfl,fun _ _ _ => rfl⟩

/-- `topics->name`, behind the topic pair that the SUBSCRIBE branch allocates first. -/
def subscribeName : Slot := ⟨fun m => (m.subscribe.topics.getD {}).name,
  fun m d => {m with subscribe := {m.subscribe with
    topics := some {(m.subscribe.topics.getD {}) with name := d}}},
  fun _ _ => rfl,fun _ _ _ => rfl⟩

end Slot

/-- `READ_STRING` and `READ_DATA`: anything but OK from the reader ends the parser with it. -/
def readCall (reader : ReadCs → Block ReadCs Reading UInt8 XiState) (slot : Slot) :
    Call ReadCs Frame Reading UInt8 XiState XiState where
  body := reader
  start := .start
  label f := f.readCs
  view f := (f.regs,slot.get f.message)
  wait f c r := ⟨.wantRead,c,r.1,slot.set f.message r.2⟩
  back f state r := ⟨state,.start,r.1,slot.set f.message r.2⟩
  good state := if state = .ok then none else some state

def readInto (reader : ReadCs → Block ReadCs Reading UInt8 XiState) (slot : Slot) (c : Cs)
    (k : Block Cs Frame UInt8 XiState) : Block Cs Frame UInt8 XiState :=
  (readCall reader slot).run c k

/-- The label inside the macro's `do while`: it goes round again unless `local_state` is OK. -/
def readAgain (reader : ReadCs → Block ReadCs Reading UInt8 XiState) (slot : Slot) (c : Cs)
    (k : Block Cs Frame UInt8 XiState) : Block Cs Frame UInt8 XiState :=
  branch (fun f => f.localState != .ok) (readInto reader slot c k) k

/-- Take one byte into the message; every such read counts in `data_length`. -/
def readByte (update : Message → UInt8 → Message) (k : Block Cs Frame UInt8 XiState) :
    Block Cs Frame UInt8 XiState :=
  next (fun f b => {f with
    message := update f.message b
    regs := {f.regs with dataLength := f.regs.dataLength + 1}}) k

def highByte (b : UInt8) : UInt16 := b.toUInt16 <<< 8
def lowByte (b : UInt8) : UInt16 := b.toUInt16 &&& 0xFF

section Connect

def connectPassword : Block Cs Frame UInt8 XiState :=
  branch (·.message.connect.passwordFollows) (readInto readString .password .connectPassword (exit .ok))
    (exit .ok)

def connectUsername : Block Cs Frame UInt8 XiState :=
  branch (·.message.connect.usernameFollows)
    (readInto readString .username .connectUsername connectPassword) connectPassword

def connectWillMessage : Block Cs Frame UInt8 XiState :=
  branch (·.message.connect.will)
    (readInto readString .willMessage .connectWillMessage connectUsername) connectUsername

def connectWillTopic : Block Cs Frame UInt8 XiState :=
  branch (·.message.connect.will)
    (readInto readString .willTopic .connectWillTopic connectWillMessage) connectWillMessage

def connectClientId : Block Cs Frame UInt8 XiState :=
  readInto readString .clientId .connectClientId connectWillTopic

def connectKeepaliveLow : Block Cs Frame UInt8 XiState :=
  readByte (fun m b => {m with connect := {m.connect with
    keepalive := m.connect.keepalive + b.toUInt16}}) connectClientId

def connectKeepalive : Block Cs Frame UInt8 XiState :=
  readByte (fun m b => {m with connect := {m.connect with keepalive := highByte b}})
    (yieldOn .connectKeepaliveLow connectKeepaliveLow)

def connectFlags : Block Cs Frame UInt8 XiState :=
  readByte (fun m b => {m with connect := {m.connect with flagsValue := b}})
    (yieldOn .connectKeepalive connectKeepalive)

def connectProtocolVersion : Block Cs Frame UInt8 XiState :=
  readByte (fun m b => {m with connect := {m.connect with protocolVersion := b}})
    (yieldOn .connectFlags connectFlags)

def connectProtocolName : Block Cs Frame UInt8 XiState :=
  readInto readString .protocolName .connectProtocolName
    (yieldOn .connectProtocolVersion connectProtocolVersion)

end Connect

section Connack

def connackReturnCode : Block Cs Frame UInt8 XiState :=
  readByte (fun m b => {m with connack := {m.connack with returnCode := b}}) (exit .ok)

def connackUnused : Block Cs Frame UInt8 XiState :=
  readByte (fun m b => {m with connack := {m.connack with unused := b}})
    (yieldOn .connackReturnCode connackReturnCode)

end Connack

section Publish

/-- What the remaining length leaves after topic and id is the payload; `data_length` counts the first
byte and one more for the length field, hence the 2. -/
def publishContent : Block Cs Frame UInt8 XiState :=
  assign (fun f => {f with regs := {f.regs with
      strLength := subSize (f.regs.remainingLength + 2) f.regs.dataLength}})
    (branch (fun f => 0 < f.regs.strLength) (readInto readData .content .publishContent (exit .ok))
      (exit .ok))

def publishMessageIdLow : Block Cs Frame UInt8 XiState :=
  readByte (fun m b => {m with publish := {m.publish with
    messageId := m.publish.messageId + lowByte b}}) publishContent

def publishMessageId : Block Cs Frame UInt8 XiState :=
  branch (fun f => 0 < f.message.common.qos)
    (readByte (fun m b => {m with publish := {m.publish with messageId := highByte b}})
      (yieldOn .publishMessageIdLow publishMessageIdLow))
    publishContent

def publishTopicName : Block Cs Frame UInt8 XiState :=
  readInto readString .topicName .publishTopicName (yieldOn .publishMessageId publishMessageId)

end Publish

section Replies

/-- The body of the packets that consist of a message id. -/
def replyLow (update : Message → (Reply → Reply) → Message) : Block Cs Frame UInt8 XiState :=
  readByte (fun m b => update m (fun r => {r with messageId := r.messageId + lowByte b})) (exit .ok)

def replyHigh (update : Message → (Reply → Reply) → Message) (low : Cs) : Block Cs Frame UInt8 XiState :=
  readByte (fun m b => update m (fun r => {r with messageId := highByte b}))
    (yieldOn low (replyLow update))

def onPuback (m : Message) (f : Reply → Reply) : Message := {m with puback := f m.puback}
def onPubrec (m : Message) (f : Reply → Reply) : Message := {m with pubrec := f m.pubrec}
def onPubrel (m : Message) (f : Reply → Reply) : Message := {m with pubrel := f m.pubrel}
def onPubcomp (m : Message) (f : Reply → Reply) : Message := {m with pubcomp := f m.pubcomp}

def puback : Block Cs Frame UInt8 XiState := replyHigh onPuback .pubackLow
def pubrec : Block Cs Frame UInt8 XiState := replyHigh onPubrec .pubrecLow
def pubrel : Block Cs Frame UInt8 XiState := replyHigh onPubrel .pubrelLow
def pubcomp : Block Cs Frame UInt8 XiState := replyHigh onPubcomp .pubcompLow

end Replies

section Topics

def subscribeQos : Block Cs Frame UInt8 XiState :=
  readByte (fun m b => {m with subscribe := {m.subscribe with
    topics := m.subscribe.topics.map fun pair => {pair with payload := b}}}) (exit .ok)

def subscribeTopics : Block Cs Frame UInt8 XiState :=
  assign (fun f => {f with message := {f.message with
      subscribe := {f.message.subscribe with topics := some {}}}})
    (readInto readString .subscribeName .subscribeName (yieldOn .subscribeQos subscribeQos))

def subscribeLow : Block Cs Frame UInt8 XiState :=
  readByte (fun m b => {m with subscribe := {m.subscribe with
    messageId := m.subscribe.messageId + lowByte b}}) (yieldOn .subscribeTopics subscribeTopics)

def subscribe : Block Cs Frame UInt8 XiState :=
  readByte (fun m b => {m with subscribe := {m.subscribe with messageId := highByte b}})
    (yieldOn .subscribeLow subscribeLow)

/-- Only the three granted levels and the failure code are passed on. -/
def parseSubackResponse (dst resp : UInt8) : XiState × UInt8 :=
  if resp = 0x00 ∨ resp = 0x01 ∨ resp = 0x02 ∨ resp = 0x80 then (.ok,resp)
  else (.mqttParserError,dst)

def subackStatus : Block Cs Frame UInt8 XiState :=
  assign (fun f => {f with message := {f.message with
      suback := {f.message.suback with topics := some {}}}})
    (check (fun f b =>
      match parseSubackResponse 0 b with
      | (.ok,status) => .ok {f with
          localState := .ok
          message := {f.message with suback := {f.message.suback with
            topics := f.message.suback.topics.map fun pair => {pair with payload := status}}}
          regs := {f.regs with dataLength := f.regs.dataLength + 1}}
      | (state,_) => .error (state,{f with localState := state})) (exit .ok))

def subackLow : Block Cs Frame UInt8 XiState :=
  readByte (fun m b => {m with suback := {m.suback with
    messageId := m.suback.messageId + lowByte b}}) (yieldOn .subackStatus subackStatus)

def suback : Block Cs Frame UInt8 XiState :=
  readByte (fun m b => {m with suback := {m.suback with messageId := highByte b}})
    (yieldOn .subackLow subackLow)

end Topics

def unsupported : Block Cs Frame UInt8 XiState :=
  assign (fun f => {f with readCs := .start,regs := {f.regs with error := .parserInvalidMessageId}})
    (exit .mqttParserError)

def packetBody : MqttType → Block Cs Frame UInt8 XiState
  | .connect => connectProtocolName
  | .connack => yieldOn .connackUnused connackUnused
  | .publish => yieldOn .publish publishTopicName
  | .puback => yieldOn .puback puback
  | .pubrec => yieldOn .pubrec pubrec
  | .pubrel => yieldOn .pubrel pubrel
  | .pubcomp => yieldOn .pubcomp pubcomp
  | .subscribe => yieldOn .subscribe subscribe
  | .suback => yieldOn .suback suback
  | .pingresp => exit .ok
  | .disconnect => exit .ok
  | _ => unsupported

section FixedHeader

/-- Behind the digits: the length is stored and the body of the packet's type begins. -/
def afterRemainingLength : Block Cs Frame UInt8 XiState :=
  assign (fun f => {f with
      message := {f.message with common := {f.message.common with
        remainingLength := UInt32.ofNat f.regs.remainingLength}}
      regs := {f.regs with dataLength := f.regs.dataLength + 1}})
    (select (·.message.common.type) packetBody)

def addDigit (regs : Registers) (b : UInt8) : Registers := {regs with
  remainingLength := regs.remainingLength + (b &&& 0x7f).toNat * regs.multiplier
  multiplier := regs.multiplier * 128}

/-- The `do while` over the digits from its yield on. The position only moves on at the head of the next
round or behind the loop, so a digit that is refused stays unread. -/
def remainingLength : Block Cs Frame UInt8 XiState
  | _,[] => .fault
  | f,b :: src =>
    let f := {f with regs := addDigit f.regs b}
    if (b &&& 0x80) ≠ 0 ∧ f.regs.digitBytes < 4 then
      let f := {f with regs := {f.regs with digitBytes := f.regs.digitBytes + 1}}
      match src with
      | [] => .more .remainingLength f
      | c :: src => remainingLength f (c :: src)
    else if 0x80 ≤ b then
      .done .mqttParserError {f with regs := {f.regs with error := .parserInvalidRemainingLength}} (b :: src)
    else afterRemainingLength f src

theorem remainingLength_cons (f : Frame) (b : UInt8) (src : List UInt8) :
    remainingLength f (b :: src) =
      if (b &&& 0x80) ≠ 0 ∧ f.regs.digitBytes < 4 then
        yieldOn .remainingLength remainingLength
          {f with regs := {addDigit f.regs b with digitBytes := f.regs.digitBytes + 1}} src
      else if 0x80 ≤ b then
        .done .mqttParserError
          {f with regs := {addDigit f.regs b with error := .parserInvalidRemainingLength}} (b :: src)
      else afterRemainingLength {f with regs := addDigit f.regs b} src := by
  cases src <;> rfl

def firstByte : Block Cs Frame UInt8 XiState :=
  next (fun f b => {f with
      message := {f.message with common := {f.message.common with commonValue := b}}
      regs := {f.regs with digitBytes := 1,multiplier := 1,remainingLength := 0,dataLength := 1}})
    (yieldOn .remainingLength remainingLength)

def start : Block Cs Frame UInt8 XiState :=
  assign (fun f => {f with localState := .ok}) (yieldOn .firstByte firstByte)

end FixedHeader

/-- The `switch` of the coroutine. -/
def resume : Cs → Block Cs Frame UInt8 XiState
  | .start => start
  | .firstByte => firstByte
  | .remainingLength => remainingLength
  | .connectProtocolName => readAgain readString .protocolName .connectProtocolName
      (yieldOn .connectProtocolVersion connectProtocolVersion)
  | .connectProtocolVersion => connectProtocolVersion
  | .connectFlags => connectFlags
  | .connectKeepalive => connectKeepalive
  | .connectKeepaliveLow => connectKeepaliveLow
  | .connectClientId => readAgain readString .clientId .connectClientId connectWillTopic
  | .connectWillTopic => readAgain readString .willTopic .connectWillTopic connectWillMessage
  | .connectWillMessage => readAgain readString .willMessage .connectWillMessage connectUsername
  | .connectUsername => readAgain readString .username .connectUsername connectPassword
  | .connectPassword => readAgain readString .password .connectPassword (exit .ok)
  | .connackUnused => connackUnused
  | .connackReturnCode => connackReturnCode
  | .publish => publishTopicName
  | .publishTopicName => readAgain readString .topicName .publishTopicName
      (yieldOn .publishMessageId publishMessageId)
  | .publishMessageId => publishMessageId
  | .publishMessageIdLow => publishMessageIdLow
  | .publishContent => readAgain readData .content .publishContent (exit .ok)
  | .puback => puback
  | .pubackLow => replyLow onPuback
  | .pubrec => pubrec
  | .pubrecLow => replyLow onPubrec
  | .pubrel => pubrel
  | .pubrelLow => replyLow onPubrel
  | .pubcomp => pubcomp
  | .pubcompLow => replyLow onPubcomp
  | .subscribe => subscribe
  | .subscribeLow => subscribeLow
  | .subscribeTopics => subscribeTopics
  | .subscribeName => readAgain readString .subscribeName .subscribeName
      (yieldOn .subscribeQos subscribeQos)
  | .subscribeQos => subscribeQos
  | .suback => suback
  | .subackLow => subackLow
  | .subackStatus => subackStatus

section Progress

/-- The parser answers OK or PARSER_ERROR, and its two readers return with OK only. -/
def Answer (state : XiState) : Prop := state = .ok ∨ state = .mqttParserError

private theorem answerOk : Answer .ok := .inl rfl

private theorem copyLoop_returns (again : ReadCs) (counted : Bool) :
    Returns (· = .ok) (copyLoop again counted) := by
  rintro ⟨regs,dst⟩ src r r' rest h
  obtain ⟨t,toRead⟩ : ∃ t, subSize regs.strLength (dstDesc dst).length = t := ⟨_,rfl⟩
  simp only [copyLoop,toRead] at h
  by_cases finished : t = 0
  · simp only [finished,if_true,Step.done.injEq] at h
    obtain ⟨rfl,_,rfl⟩ := h
    exact ⟨rfl,List.suffix_refl src⟩
  rw [if_neg finished] at h
  split at h
  · exact absurd h (by simp)
  · split at h
    · simp only [Step.done.injEq] at h
      obtain ⟨rfl,_,rfl⟩ := h
      exact ⟨rfl,List.drop_suffix _ src⟩
    · exact absurd h (by simp)
  · rename_i state desc' notOk appended
    exact absurd (DataDesc.appendDataResize_ok _ _ _ _ appended).1 notOk

private theorem readString_returns (d : ReadCs) : Returns (· = .ok) (readString d) := by
  have body : Returns (· = .ok) stringBody := copyLoop_returns _ _
  have low : Returns (· = .ok) stringLow := .next (.yieldOn body)
  have high : Returns (· = .ok) stringHigh := .next (.yieldOn low)
  have first : Returns (· = .ok) (yieldOn .stringHigh stringHigh) := .yieldOn high
  cases d with
  | stringHigh => exact high
  | stringLow => exact low
  | stringBody => exact body
  | stringCopy => exact copyLoop_returns _ _
  | start | dataBody | dataCopy => exact fun s => first _

private theorem readData_returns (d : ReadCs) : Returns (· = .ok) (readData d) := by
  have first : Returns (· = .ok) (yieldOn .dataBody dataBody) := .yieldOn (copyLoop_returns _ _)
  cases d with
  | dataBody | dataCopy => exact copyLoop_returns _ _
  | start | stringHigh | stringLow | stringBody | stringCopy => exact fun s => first _

variable {reader : ReadCs → Block ReadCs Reading UInt8 XiState} {slot : Slot} {c : Cs}
  {k : Block Cs Frame UInt8 XiState}

private theorem readInto_returns (hreader : ∀ d, Returns (· = .ok) (reader d)) (hk : Returns Answer k) :
    Returns Answer (readInto reader slot c k) := by
  refine .call _ hreader ?_ hk
  rintro r r' rfl ended
  exact absurd ended (by simp [readCall])

private theorem readAgain_returns (hreader : ∀ d, Returns (· = .ok) (reader d)) (hk : Returns Answer k) :
    Returns Answer (readAgain reader slot c k) := .branch (readInto_returns hreader hk) hk

private theorem readByte_returns {update : Message → UInt8 → Message} (hk : Returns Answer k) :
    Returns Answer (readByte update k) := .next hk

private theorem connectPassword_returns : Returns Answer connectPassword :=
  .branch (readInto_returns readString_returns (.exit answerOk)) (.exit answerOk)

private theorem connectUsername_returns : Returns Answer connectUsername :=
  .branch (readInto_returns readString_returns connectPassword_returns) connectPassword_returns

private theorem connectWillMessage_returns : Returns Answer connectWillMessage :=
  .branch (readInto_returns readString_returns connectUsername_returns) connectUsername_returns

private theorem connectWillTopic_returns : Returns Answer connectWillTopic :=
  .branch (readInto_returns readString_returns connectWillMessage_returns) connectWillMessage_returns

private theorem connectKeepaliveLow_returns : Returns Answer connectKeepaliveLow := by
  have clientId : Returns Answer connectClientId := readInto_returns readString_returns connectWillTopic_returns
  exact readByte_returns clientId

private theorem connectProtocolVersion_returns : Returns Answer connectProtocolVersion :=
  readByte_returns (.yieldOn (readByte_returns (.yieldOn (readByte_returns (.yieldOn connectKeepaliveLow_returns)))))

private theorem publishContent_returns : Returns Answer publishContent :=
  .assign (.branch (readInto_returns readData_returns (.exit answerOk)) (.exit answerOk))

private theorem publishMessageId_returns : Returns Answer publishMessageId :=
  .branch (readByte_returns (.yieldOn (readByte_returns publishContent_returns))) publishContent_returns

private theorem publishTopicName_returns : Returns Answer publishTopicName :=
  readInto_returns readString_returns (.yieldOn publishMessageId_returns)

private theorem replyHigh_returns (update : Message → (Reply → Reply) → Message) (low : Cs) :
    Returns Answer (replyHigh update low) :=
  readByte_returns (.yieldOn (readByte_returns (.exit answerOk)))

private theorem subscribeTopics_returns : Returns Answer subscribeTopics :=
  .assign (readInto_returns readString_returns (.yieldOn (readByte_returns (.exit answerOk))))

private theorem parseSubackResponse_answer (dst resp : UInt8) : Answer (parseSubackResponse dst resp).1 := by
  rw [parseSubackResponse]
  split
  · exact .inl rfl
  · exact .inr rfl

private theorem subackStatus_returns : Returns Answer subackStatus := by
  refine .assign (.check ?_ (.exit answerOk))
  intro f b state f' refused
  split at refused
  · exact absurd refused (by simp)
  · rename_i answered
    obtain ⟨rfl,_⟩ : _ = state ∧ _ = f' := by simpa using refused
    have answer := parseSubackResponse_answer 0 b
    rw [answered] at answer
    exact answer

private theorem packetBody_returns (type : MqttType) : Returns Answer (packetBody type) := by
  have refused : Returns Answer unsupported := .assign (.exit (.inr rfl))
  cases type with
  | connect => exact readInto_returns readString_returns (.yieldOn connectProtocolVersion_returns)
  | connack => exact .yieldOn (readByte_returns (.yieldOn (readByte_returns (.exit answerOk))))
  | publish => exact .yieldOn publishTopicName_returns
  | puback | pubrec | pubrel | pubcomp => exact .yieldOn (replyHigh_returns _ _)
  | subscribe => exact .yieldOn (readByte_returns (.yieldOn (readByte_returns (.yieldOn subscribeTopics_returns))))
  | suback => exact .yieldOn (readByte_returns (.yieldOn (readByte_returns (.yieldOn subackStatus_returns))))
  | pingresp | disconnect => exact .exit answerOk
  | none | unsubscribe | unsuback | pingreq | reserved => exact refused

private theorem remainingLength_returns : Returns Answer remainingLength := by
  have after : Returns Answer afterRemainingLength := .assign (.select packetBody_returns)
  intro f src
  induction src generalizing f with
  | nil =>
    intro r f' rest h
    exact absurd h (by simp [remainingLength])
  | cons b src ih =>
    intro r f' rest h
    rw [remainingLength_cons] at h
    split at h
    · cases src with
      | nil => exact absurd h (by simp [yieldOn])
      | cons c src =>
        obtain ⟨answer,suffix⟩ := ih _ r f' rest h
        exact ⟨answer,suffix.trans (List.suffix_cons b (c :: src))⟩
    · split at h
      · simp only [Step.done.injEq] at h
        obtain ⟨rfl,_,rfl⟩ := h
        exact ⟨.inr rfl,List.suffix_refl (b :: src)⟩
      · obtain ⟨answer,suffix⟩ := after _ src r f' rest h
        exact ⟨answer,suffix.trans (List.suffix_cons b src)⟩

theorem resume_returns (c : Cs) : Returns Answer (resume c) := by
  have firstByte : Returns Answer firstByte := .next (.yieldOn remainingLength_returns)
  have start : Returns Answer start := .assign (.yieldOn firstByte)
  have keepalive : Returns Answer connectKeepalive := readByte_returns (.yieldOn connectKeepaliveLow_returns)
  have flags : Returns Answer connectFlags := readByte_returns (.yieldOn keepalive)
  have returnCode : Returns Answer connackReturnCode := readByte_returns (.exit answerOk)
  have unused : Returns Answer connackUnused := readByte_returns (.yieldOn returnCode)
  have idLow : Returns Answer publishMessageIdLow := readByte_returns publishContent_returns
  have low (update : Message → (Reply → Reply) → Message) : Returns Answer (replyLow update) :=
    readByte_returns (.exit answerOk)
  have qos : Returns Answer subscribeQos := readByte_returns (.exit answerOk)
  have subscribeLow : Returns Answer subscribeLow := readByte_returns (.yieldOn subscribeTopics_returns)
  have subscribe : Returns Answer subscribe := readByte_returns (.yieldOn subscribeLow)
  have subackLow : Returns Answer subackLow := readByte_returns (.yieldOn subackStatus_returns)
  have suback : Returns Answer suback := readByte_returns (.yieldOn subackLow)
  cases c with
  | start => exact start
  | firstByte => exact firstByte
  | remainingLength => exact remainingLength_returns
  | connectProtocolName => exact readAgain_returns readString_returns (.yieldOn connectProtocolVersion_returns)
  | connectProtocolVersion => exact connectProtocolVersion_returns
  | connectFlags => exact flags
  | connectKeepalive => exact keepalive
  | connectKeepaliveLow => exact connectKeepaliveLow_returns
  | connectClientId => exact readAgain_returns readString_returns connectWillTopic_returns
  | connectWillTopic => exact readAgain_returns readString_returns connectWillMessage_returns
  | connectWillMessage => exact readAgain_returns readString_returns connectUsername_returns
  | connectUsername => exact readAgain_returns readString_returns connectPassword_returns
  | connectPassword => exact readAgain_returns readString_returns (.exit answerOk)
  | connackUnused => exact unused
  | connackReturnCode => exact returnCode
  | publish => exact publishTopicName_returns
  | publishTopicName => exact readAgain_returns readString_returns (.yieldOn publishMessageId_returns)
  | publishMessageId => exact publishMessageId_returns
  | publishMessageIdLow => exact idLow
  | publishContent => exact readAgain_returns readData_returns (.exit answerOk)
  | puback | pubrec | pubrel | pubcomp => exact replyHigh_returns _ _
  | pubackLow | pubrecLow | pubrelLow | pubcompLow => exact low _
  | subscribe => exact subscribe
  | subscribeLow => exact subscribeLow
  | subscribeTopics => exact subscribeTopics_returns
  | subscribeName => exact readAgain_returns readString_returns (.yieldOn qos)
  | subscribeQos => exact qos
  | suback => exact suback
  | subackLow => exact subackLow
  | subackStatus => exact subackStatus_returns

/-- A fresh parser that returns has taken the first byte at least. -/
theorem start_shorter (f : Frame) (src : List UInt8) (state : XiState) (f' : Frame) (rest : List UInt8)
    (h : start f src = .done state f' rest) : rest.length < src.length := by
  cases src with
  | nil => exact absurd h (by simp [start,assign,yieldOn])
  | cons b src =>
    have tail : Returns Answer (yieldOn .remainingLength remainingLength) := .yieldOn remainingLength_returns
    exact Nat.lt_succ_of_le (tail _ _ _ _ _ h).2.length_le

end Progress

end ParserExecute

/-- `xi_mqtt_parser_t`. -/
structure Parser extends ParserExecute.Registers where
  cs : ParserExecute.Cs := .start
  readCs : ParserExecute.ReadCs := .start
  deriving DecidableEq, Repr

def parserInit : Parser := {}

/-- What a call of the parser leaves: its answer, the parser, the static local, the message and the
unread bytes; `fault` is an access outside a buffer. -/
inductive Executed
  | returned (state : XiState) (parser : Parser) (localState : XiState) (message : Message)
      (rest : List UInt8)
  | fault
  deriving DecidableEq, Repr

/-- A yield answers WANT_READ with the source at its end. -/
def Executed.ofStep : Resumable.Step ParserExecute.Cs ParserExecute.Frame UInt8 XiState → Executed
  | .more c f => .returned .wantRead {f.regs with cs := c,readCs := f.readCs} f.localState f.message []
  | .done state f rest =>
      .returned state {f.regs with cs := .start,readCs := f.readCs} f.localState f.message rest
  | .fault => .fault

private theorem ofStep_returned {st : Resumable.Step ParserExecute.Cs ParserExecute.Frame UInt8 XiState}
    {state localState : XiState} {parser : Parser} {message : Message} {rest : List UInt8}
    (h : Executed.ofStep st = .returned state parser localState message rest) :
    rest = [] ∨ ∃ f, st = .done state f rest := by
  cases st with
  | more c f =>
    simp only [Executed.ofStep,Executed.returned.injEq] at h
    exact .inl h.2.2.2.2.symm
  | done r f left =>
    simp only [Executed.ofStep,Executed.returned.injEq] at h
    obtain ⟨rfl,_,_,_,rfl⟩ := h
    exact .inr ⟨f,rfl⟩
  | fault => exact absurd h (by simp [Executed.ofStep])

def parserExecute (parser : Parser) (localState : XiState) (message : Message) (src : List UInt8) :
    Executed :=
  .ofStep (ParserExecute.resume parser.cs ⟨localState,parser.readCs,parser.toRegisters,message⟩ src)

theorem parserExecute_suffix {parser parser' : Parser} {localState localState' state : XiState}
    {message message' : Message} {src rest : List UInt8}
    (h : parserExecute parser localState message src = .returned state parser' localState' message' rest) :
    rest <:+ src := by
  rcases ofStep_returned h with rfl | ⟨f,done⟩
  · exact List.nil_suffix
  · exact (ParserExecute.resume_returns _ _ _ _ _ _ done).2

theorem parserExecute_fresh_length {parser' : Parser} {localState localState' state : XiState}
    {message message' : Message} {src rest : List UInt8}
    (h : parserExecute parserInit localState message src = .returned state parser' localState' message' rest)
    (left : rest ≠ []) : rest.length < src.length := by
  rcases ofStep_returned h with rfl | ⟨f,done⟩
  · exact absurd rfl left
  · exact ParserExecute.start_shorter _ _ _ _ _ done

end XivelyClient.Mqtt
