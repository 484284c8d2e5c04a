import XivelyClient.Lib.Positioned
import XivelyClient.Mqtt.Chunking
import XivelyClient.Mqtt.Independence

/-! `xi_mqtt_parser_execute` over `data_ptr`, `length` and `curr_pos`, where nothing but the yields keeps a read inside
the buffer. It reads no place behind its buffer and copies no more than is left there, at whichever yield it goes on. -/
namespace XivelyClient.Mqtt.ParserExecute.Positions
open Positioned

section Reading

/-- Subtraction of `uint32_t`. -/
def subWord (a b : Nat) : Nat := (a + 2 ^ 32 - b) % 2 ^ 32

def copyLoop (again : ReadCs) (counted : Bool) : Block ReadCs Reading UInt8 XiState :=
  fun (regs,dst) src =>
    let desc := dstDesc dst
    let toRead := subSize regs.strLength desc.length
    let srcLeft := subWord src.length src.currPos
    let lenToRead := min toRead srcLeft
    if toRead = 0 then ⟨.done .ok (regs,some desc),src.currPos,[]⟩
    else
      match desc.appendDataResize true (src.bytes lenToRead) with
      | none => ⟨.fault,src.currPos,[.copy src.currPos lenToRead]⟩
      | some (.ok,desc') =>
        let regs := countCopied counted regs lenToRead
        if toRead - lenToRead = 0 then
          ⟨.done .ok (regs,some desc'),src.currPos + lenToRead,[.copy src.currPos lenToRead]⟩
        else ⟨.more again (regs,some desc'),src.currPos + lenToRead,[.copy src.currPos lenToRead]⟩
      | some (state,desc') => ⟨.done state (regs,some desc'),src.currPos,[.copy src.currPos lenToRead]⟩

def stringBody : Block ReadCs Reading UInt8 XiState := copyLoop .stringCopy true

def stringLow : Block ReadCs Reading UInt8 XiState :=
  next (fun (regs,dst) b => ({regs with
    strLength := regs.strLength + b.toNat,dataLength := regs.dataLength + 1},some (dstDesc dst)))
    (yieldOn .stringBody stringBody)

def stringHigh : Block ReadCs Reading UInt8 XiState :=
  next (fun (regs,dst) b => ({regs with
    strLength := b.toNat <<< 8,dataLength := regs.dataLength + 1},some (dstDesc dst)))
    (yieldOn .stringLow stringLow)

def readString : ReadCs → Block ReadCs Reading UInt8 XiState
  | .stringHigh => stringHigh
  | .stringLow => stringLow
  | .stringBody => stringBody
  | .stringCopy => copyLoop .stringCopy true
  | _ => assign (fun (regs,dst) => (regs,some (dstDesc dst))) (yieldOn .stringHigh stringHigh)

def dataBody : Block ReadCs Reading UInt8 XiState := copyLoop .dataCopy false

def readData : ReadCs → Block ReadCs Reading UInt8 XiState
  | .dataBody => dataBody
  | .dataCopy => copyLoop .dataCopy false
  | _ => assign (fun (regs,dst) => (regs,some (dstDesc dst))) (yieldOn .dataBody dataBody)

end Reading

/-- READ_STRING. -/
def readStringInto (slot : Slot) (c : Cs) (k : Block Cs Frame UInt8 XiState) : Block Cs Frame UInt8 XiState :=
  call (readCall ParserExecute.readString slot) readString c k

/-- READ_DATA. -/
def readDataInto (slot : Slot) (c : Cs) (k : Block Cs Frame UInt8 XiState) : Block Cs Frame UInt8 XiState :=
  call (readCall ParserExecute.readData slot) readData c k

def readStringAgain (slot : Slot) (c : Cs) (k : Block Cs Frame UInt8 XiState) : Block Cs Frame UInt8 XiState :=
  branch (fun f => f.localState != .ok) (readStringInto slot c k) k

def readDataAgain (slot : Slot) (c : Cs) (k : Block Cs Frame UInt8 XiState) : Block Cs Frame UInt8 XiState :=
  branch (fun f => f.localState != .ok) (readDataInto slot c k) k

def readByte (update : Message → UInt8 → Message) (k : Block Cs Frame UInt8 XiState) :
    Block Cs Frame UInt8 XiState :=
  next (fun f b => {f with
    message := update f.message b
    regs := {f.regs with dataLength := f.regs.dataLength + 1}}) k

section Connect

def connectPassword : Block Cs Frame UInt8 XiState :=
  branch (·.message.connect.passwordFollows) (readStringInto .password .connectPassword (exit .ok))
    (exit .ok)

def connectUsername : Block Cs Frame UInt8 XiState :=
  branch (·.message.connect.usernameFollows)
    (readStringInto .username .connectUsername connectPassword) connectPassword

def connectWillMessage : Block Cs Frame UInt8 XiState :=
  branch (·.message.connect.will)
    (readStringInto .willMessage .connectWillMessage connectUsername) connectUsername

def connectWillTopic : Block Cs Frame UInt8 XiState :=
  branch (·.message.connect.will)
    (readStringInto .willTopic .connectWillTopic connectWillMessage) connectWillMessage

def connectClientId : Block Cs Frame UInt8 XiState :=
  readStringInto .clientId .connectClientId connectWillTopic

def connectKeepaliveLow : Block Cs Frame UInt8 XiState :=
  readByte (fun m b => {m with connect := {m.connect with
    keepalive := m.connect.keepalive + b.toUInt16}}) connectClientId

def connectKeepalive : Block Cs Frame UInt8 XiState :=
  readByte (fun m b => {m with connect := {m.connect with keepalive := highByte b}})
    (yieldOn .connectKeepaliveLow connectKeepaliveLow)

def connectFlags : Block Cs Frame UInt8 XiState :=
  readByte (fun m b => {m with connect := {m.connect with flagsValue := b}})
    (yieldOn .connectKeepalive connectKeepalive)

def connectProtocolVersion : Block Cs Frame UInt8 XiState :=
  readByte (fun m b => {m with connect := {m.connect with protocolVersion := b}})
    (yieldOn .connectFlags connectFlags)

def connectProtocolName : Block Cs Frame UInt8 XiState :=
  readStringInto .protocolName .connectProtocolName
    (yieldOn .connectProtocolVersion connectProtocolVersion)

end Connect

section Connack

def connackReturnCode : Block Cs Frame UInt8 XiState :=
  readByte (fun m b => {m with connack := {m.connack with returnCode := b}}) (exit .ok)

def connackUnused : Block Cs Frame UInt8 XiState :=
  readByte (fun m b => {m with connack := {m.connack with unused := b}})
    (yieldOn .connackReturnCode connackReturnCode)

end Connack

section Publish

def publishContent : Block Cs Frame UInt8 XiState :=
  assign (fun f => {f with regs := {f.regs with
      strLength := subSize (f.regs.remainingLength + 2) f.regs.dataLength}})
    (branch (fun f => 0 < f.regs.strLength) (readDataInto .content .publishContent (exit .ok))
      (exit .ok))

def publishMessageIdLow : Block Cs Frame UInt8 XiState :=
  readByte (fun m b => {m with publish := {m.publish with
    messageId := m.publish.messageId + lowByte b}}) publishContent

def publishMessageId : Block Cs Frame UInt8 XiState :=
  branch (fun f => 0 < f.message.common.qos)
    (readByte (fun m b => {m with publish := {m.publish with messageId := highByte b}})
      (yieldOn .publishMessageIdLow publishMessageIdLow))
    publishContent

def publishTopicName : Block Cs Frame UInt8 XiState :=
  readStringInto .topicName .publishTopicName (yieldOn .publishMessageId publishMessageId)

end Publish

section Replies

def replyLow (update : Message → (Reply → Reply) → Message) : Block Cs Frame UInt8 XiState :=
  readByte (fun m b => update m (fun r => {r with messageId := r.messageId + lowByte b})) (exit .ok)

def replyHigh (update : Message → (Reply → Reply) → Message) (low : Cs) : Block Cs Frame UInt8 XiState :=
  readByte (fun m b => update m (fun r => {r with messageId := highByte b}))
    (yieldOn low (replyLow update))


def puback : Block Cs Frame UInt8 XiState := replyHigh onPuback .pubackLow
def pubrec : Block Cs Frame UInt8 XiState := replyHigh onPubrec .pubrecLow
def pubrel : Block Cs Frame UInt8 XiState := replyHigh onPubrel .pubrelLow
def pubcomp : Block Cs Frame UInt8 XiState := replyHigh onPubcomp .pubcompLow

end Replies

section Topics

def subscribeQos : Block Cs Frame UInt8 XiState :=
  readByte (fun m b => {m with subscribe := {m.subscribe with
    topics := m.subscribe.topics.map fun pair => {pair with payload := b}}}) (exit .ok)

def subscribeTopics : Block Cs Frame UInt8 XiState :=
  assign (fun f => {f with message := {f.message with
      subscribe := {f.message.subscribe with topics := some {}}}})
    (readStringInto .subscribeName .subscribeName (yieldOn .subscribeQos subscribeQos))

def subscribeLow : Block Cs Frame UInt8 XiState :=
  readByte (fun m b => {m with subscribe := {m.subscribe with
    messageId := m.subscribe.messageId + lowByte b}}) (yieldOn .subscribeTopics subscribeTopics)

def subscribe : Block Cs Frame UInt8 XiState :=
  readByte (fun m b => {m with subscribe := {m.subscribe with messageId := highByte b}})
    (yieldOn .subscribeLow subscribeLow)

def subackStatus : Block Cs Frame UInt8 XiState :=
  assign (fun f => {f with message := {f.message with
      suback := {f.message.suback with topics := some {}}}})
    (check (fun f b =>
      match parseSubackResponse 0 b with
      | (.ok,status) => .ok {f with
          localState := .ok
          message := {f.message with suback := {f.message.suback with
            topics := f.message.suback.topics.map fun pair => {pair with payload := status}}}
          regs := {f.regs with dataLength := f.regs.dataLength + 1}}
      | (state,_) => .error (state,{f with localState := state})) (exit .ok))

def subackLow : Block Cs Frame UInt8 XiState :=
  readByte (fun m b => {m with suback := {m.suback with
    messageId := m.suback.messageId + lowByte b}}) (yieldOn .subackStatus subackStatus)

def suback : Block Cs Frame UInt8 XiState :=
  readByte (fun m b => {m with suback := {m.suback with messageId := highByte b}})
    (yieldOn .subackLow subackLow)

end Topics

def unsupported : Block Cs Frame UInt8 XiState :=
  assign (fun f => {f with readCs := .start,regs := {f.regs with error := .parserInvalidMessageId}})
    (exit .mqttParserError)

def packetBody : MqttType → Block Cs Frame UInt8 XiState
  | .connect => connectProtocolName
  | .connack => yieldOn .connackUnused connackUnused
  | .publish => yieldOn .publish publishTopicName
  | .puback => yieldOn .puback puback
  | .pubrec => yieldOn .pubrec pubrec
  | .pubrel => yieldOn .pubrel pubrel
  | .pubcomp => yieldOn .pubcomp pubcomp
  | .subscribe => yieldOn .subscribe subscribe
  | .suback => yieldOn .suback suback
  | .pingresp => exit .ok
  | .disconnect => exit .ok
  | _ => unsupported

section FixedHeader

def afterRemainingLength : Block Cs Frame UInt8 XiState :=
  assign (fun f => {f with
      message := {f.message with common := {f.message.common with
        remainingLength := UInt32.ofNat f.regs.remainingLength}}
      regs := {f.regs with dataLength := f.regs.dataLength + 1}})
    (select (·.message.common.type) packetBody)

/-- The `do while` over the digits from its yield on. -/
def remainingLength (f : Frame) (src : Source UInt8) : Activation Cs Frame XiState :=
  let b := src.data src.currPos
  let regs := addDigit f.regs b
  if _ : (b &&& 0x80) ≠ 0 ∧ regs.digitBytes < 4 then
    let f' := {f with regs := {regs with digitBytes := regs.digitBytes + 1}}
    let src' := src.advance 1
    let act := if src'.currPos = src'.length then ⟨.more .remainingLength f',src'.currPos,[]⟩ else remainingLength f' src'
    act.after [.byte src.currPos]
  else if 0x80 ≤ b then
    ⟨.done .mqttParserError {f with regs := {regs with error := .parserInvalidRemainingLength}},src.currPos,
      [.byte src.currPos]⟩
  else (afterRemainingLength {f with regs := regs} (src.advance 1)).after [.byte src.currPos]
termination_by 4 - f.regs.digitBytes
decreasing_by
  have digits : f.regs.digitBytes < 4 := And.right ‹_›
  exact Nat.sub_lt_sub_left digits (Nat.lt_succ_self f.regs.digitBytes)

theorem remainingLength_eq (f : Frame) (src : Source UInt8) :
    remainingLength f src =
      if (src.data src.currPos &&& 0x80) ≠ 0 ∧ f.regs.digitBytes < 4 then
        (yieldOn .remainingLength remainingLength
          {f with regs := {addDigit f.regs (src.data src.currPos) with digitBytes := f.regs.digitBytes + 1}}
          (src.advance 1)).after [.byte src.currPos]
      else if 0x80 ≤ src.data src.currPos then
        ⟨.done .mqttParserError
          {f with regs := {addDigit f.regs (src.data src.currPos) with error := .parserInvalidRemainingLength}},src.currPos,
          [.byte src.currPos]⟩
      else (afterRemainingLength {f with regs := addDigit f.regs (src.data src.currPos)} (src.advance 1)).after
        [.byte src.currPos] := by
  rw [remainingLength,dite_eq_ite]
  rfl

def firstByte : Block Cs Frame UInt8 XiState :=
  next (fun f b => {f with
      message := {f.message with common := {f.message.common with commonValue := b}}
      regs := {f.regs with digitBytes := 1,multiplier := 1,remainingLength := 0,dataLength := 1}})
    (yieldOn .remainingLength remainingLength)

def start : Block Cs Frame UInt8 XiState :=
  assign (fun f => {f with localState := .ok}) (yieldOn .firstByte firstByte)

end FixedHeader

/-- The `switch` of the coroutine. -/
def resume : Cs → Block Cs Frame UInt8 XiState
  | .start => start
  | .firstByte => firstByte
  | .remainingLength => remainingLength
  | .connectProtocolName => readStringAgain .protocolName .connectProtocolName (yieldOn .connectProtocolVersion connectProtocolVersion)
  | .connectProtocolVersion => connectProtocolVersion
  | .connectFlags => connectFlags
  | .connectKeepalive => connectKeepalive
  | .connectKeepaliveLow => connectKeepaliveLow
  | .connectClientId => readStringAgain .clientId .connectClientId connectWillTopic
  | .connectWillTopic => readStringAgain .willTopic .connectWillTopic connectWillMessage
  | .connectWillMessage => readStringAgain .willMessage .connectWillMessage connectUsername
  | .connectUsername => readStringAgain .username .connectUsername connectPassword
  | .connectPassword => readStringAgain .password .connectPassword (exit .ok)
  | .connackUnused => connackUnused
  | .connackReturnCode => connackReturnCode
  | .publish => publishTopicName
  | .publishTopicName => readStringAgain .topicName .publishTopicName (yieldOn .publishMessageId publishMessageId)
  | .publishMessageId => publishMessageId
  | .publishMessageIdLow => publishMessageIdLow
  | .publishContent => readDataAgain .content .publishContent (exit .ok)
  | .puback => puback
  | .pubackLow => replyLow onPuback
  | .pubrec => pubrec
  | .pubrecLow => replyLow onPubrec
  | .pubrel => pubrel
  | .pubrelLow => replyLow onPubrel
  | .pubcomp => pubcomp
  | .pubcompLow => replyLow onPubcomp
  | .subscribe => subscribe
  | .subscribeLow => subscribeLow
  | .subscribeTopics => subscribeTopics
  | .subscribeName => readStringAgain .subscribeName .subscribeName (yieldOn .subscribeQos subscribeQos)
  | .subscribeQos => subscribeQos
  | .suback => suback
  | .subackLow => subackLow
  | .subackStatus => subackStatus

section Bounds

/-- A parser that stops inside a reader has WANT_READ in the static local; elsewhere no reader is under way. -/
def Waits (c : Cs) (f : Frame) : Prop := if c.reads then f.localState = .wantRead else Idle f

abbrev Bounded (n : Nat) (pre : Frame → Prop) (k : Resumable.Block Cs Frame UInt8 XiState) (l : Block Cs Frame UInt8 XiState) :
    Prop := Locates (2 ^ 32) Waits Idle n pre k l

abbrev ReaderBounded (n : Nat) (k : Resumable.Block ReadCs Reading UInt8 XiState) (l : Block ReadCs Reading UInt8 XiState) :
    Prop := Locates (2 ^ 32) (fun _ _ => True) (fun _ => True) n (fun _ => True) k l

private theorem copyLoop_bounded (n : Nat) (again : ReadCs) (counted : Bool) :
    ReaderBounded n (ParserExecute.copyLoop again counted) (copyLoop again counted) := by
  rintro ⟨regs,dst⟩ _ src short left
  have srcLeft : subWord src.length src.currPos = src.length - src.currPos := by
    rw [subWord]
    omega
  obtain ⟨t,toRead⟩ : ∃ t, subSize regs.strLength (dstDesc dst).length = t := ⟨_,rfl⟩
  obtain ⟨count,lenToRead⟩ : ∃ count, min t (src.length - src.currPos) = count := ⟨_,rfl⟩
  have here : src.currPos ≤ src.length := by omega
  have moved : src.currPos + count ≤ src.length := by omega
  have split := src.unread_append moved
  have taken : src.unread.take count = src.bytes count := by
    rw [split,List.take_left' (src.bytes_length count)]
  have rest : src.unread.drop count = (src.advance count).unread := by
    rw [split,List.drop_left' (src.bytes_length count)]
  have copied : ∀ access ∈ [Access.copy src.currPos count], access.Inside src.length := by
    intro access member
    rw [List.mem_singleton.mp member]
    exact ⟨here,Nat.le_sub_of_add_le' moved⟩
  simp only [copyLoop,ParserExecute.copyLoop,srcLeft,toRead,src.unread_length,lenToRead,taken,rest]
  by_cases finished : t = 0
  · simp only [if_pos finished]
    exact ⟨nofun,here,rfl,trivial⟩
  simp only [if_neg finished]
  cases (dstDesc dst).appendDataResize true (src.bytes count) with
  | none => exact ⟨copied,here,rfl⟩
  | some result =>
    obtain ⟨state,desc⟩ := result
    by_cases all : t - count = 0
    · cases state <;> simp only [if_pos all]
      case ok => exact ⟨copied,moved,rfl,trivial⟩
      all_goals exact ⟨copied,here,rfl,trivial⟩
    · have end_ : src.currPos + count = src.length := by omega
      cases state <;> simp only [if_neg all]
      case ok => exact ⟨copied,moved,rfl,end_,trivial⟩
      all_goals exact ⟨copied,here,rfl,trivial⟩

private theorem readString_bounded (d : ReadCs) : ReaderBounded 1 (ParserExecute.readString d) (readString d) ∧
    ReaderBounded 0 (ParserExecute.readString .start) (readString .start) := by
  have body : ReaderBounded 1 ParserExecute.stringBody stringBody := copyLoop_bounded 1 _ _
  have low : ReaderBounded 1 ParserExecute.stringLow stringLow :=
    .next (fun _ _ _ => trivial) (.yieldOn (fun _ _ => trivial) body)
  have high : ReaderBounded 1 ParserExecute.stringHigh stringHigh :=
    .next (fun _ _ _ => trivial) (.yieldOn (fun _ _ => trivial) low)
  have first : ReaderBounded 0 (Resumable.yieldOn .stringHigh ParserExecute.stringHigh) (yieldOn .stringHigh stringHigh) :=
    .yieldOn (fun _ _ => trivial) high
  refine ⟨?_,fun r _ => first _ trivial⟩
  cases d with
  | stringHigh => exact high
  | stringLow => exact low
  | stringBody => exact body
  | stringCopy => exact copyLoop_bounded 1 _ _
  | start | dataBody | dataCopy => exact fun r _ => first.more _ trivial

private theorem readData_bounded (d : ReadCs) : ReaderBounded 1 (ParserExecute.readData d) (readData d) ∧
    ReaderBounded 0 (ParserExecute.readData .start) (readData .start) := by
  have first : ReaderBounded 0 (Resumable.yieldOn .dataBody ParserExecute.dataBody) (yieldOn .dataBody dataBody) :=
    .yieldOn (fun _ _ => trivial) (copyLoop_bounded 1 _ _)
  refine ⟨?_,fun r _ => first _ trivial⟩
  cases d with
  | dataBody | dataCopy => exact copyLoop_bounded 1 _ _
  | start | stringHigh | stringLow | stringBody | stringCopy => exact fun r _ => first.more _ trivial

variable {reader : ReadCs → Resumable.Block ReadCs Reading UInt8 XiState} {body : ReadCs → Block ReadCs Reading UInt8 XiState}
  {slot : Slot} {c : Cs} {n : Nat} {k : Resumable.Block Cs Frame UInt8 XiState} {l : Block Cs Frame UInt8 XiState}

private theorem yieldOn_bounded (outside : c.reads = false) (hk : Bounded 1 Idle k l) :
    Bounded n Idle (Resumable.yieldOn c k) (yieldOn c l) := by
  refine .yieldOn (fun f idle => ?_) hk
  rw [Waits,outside]
  exact idle

private theorem readByte_bounded {update : Message → UInt8 → Message} (hk : Bounded 0 Idle k l) :
    Bounded 1 Idle (ParserExecute.readByte update k) (readByte update l) := .next (fun _ _ idle => idle) hk

private theorem assign_bounded {update : Frame → Frame} (keep : ∀ f, (update f).readCs = f.readCs) (hk : Bounded n Idle k l) :
    Bounded n Idle (Resumable.assign update k) (assign update l) := .assign (fun f idle => (keep f).trans idle) hk

private theorem readInto_waits (inside : c.reads = true) (f : Frame) (d : ReadCs) (r : Reading) :
    Waits c ((readCall reader slot).wait f d r) := by
  rw [Waits,if_pos inside]
  rfl

private theorem readInto_bounded (first : ReaderBounded 0 (reader .start) (body .start)) (inside : c.reads = true)
    (hk : Bounded 0 Idle k l) : Bounded 0 Idle (readInto reader slot c k) (call (readCall reader slot) body c l) := by
  refine .call (fun f idle => ?_) (readInto_waits inside) (fun _ _ _ => rfl) hk
  have fresh : (readCall reader slot).label f = .start := idle
  rw [fresh]
  exact first

/-- At its label a reader goes on wherever it stopped, for there is something to read. -/
private theorem readAgain_bounded (again : ∀ d, ReaderBounded 1 (reader d) (body d)) (inside : c.reads = true)
    (hk : Bounded 0 Idle k l) : Bounded 1 (Waits c) (readAgain reader slot c k)
      (branch (fun f => f.localState != .ok) (call (readCall reader slot) body c l) l) := by
  intro f waits src short left
  rw [Waits,if_pos inside] at waits
  have waiting : (f.localState != .ok) = true := by
    rw [waits]
    rfl
  have entered : Bounded 1 (fun _ => True) (readInto reader slot c k) (call (readCall reader slot) body c l) :=
    .call (fun f _ => again _) (readInto_waits inside) (fun _ _ _ => rfl) hk
  simp only [readAgain,Resumable.branch,Positioned.branch,if_pos waiting]
  exact entered f trivial src short left

private theorem readString_into (inside : c.reads = true) (hk : Bounded 0 Idle k l) :
    Bounded n Idle (readInto ParserExecute.readString slot c k) (readStringInto slot c l) :=
  (readInto_bounded (readString_bounded .start).2 inside hk).more

private theorem readData_into (inside : c.reads = true) (hk : Bounded 0 Idle k l) :
    Bounded n Idle (readInto ParserExecute.readData slot c k) (readDataInto slot c l) :=
  (readInto_bounded (readData_bounded .start).2 inside hk).more

private theorem readString_again (inside : c.reads = true) (hk : Bounded 0 Idle k l) :
    Bounded 1 (Waits c) (readAgain ParserExecute.readString slot c k) (readStringAgain slot c l) :=
  readAgain_bounded (fun d => (readString_bounded d).1) inside hk

private theorem readData_again (inside : c.reads = true) (hk : Bounded 0 Idle k l) :
    Bounded 1 (Waits c) (readAgain ParserExecute.readData slot c k) (readDataAgain slot c l) :=
  readAgain_bounded (fun d => (readData_bounded d).1) inside hk

private theorem connectPassword_bounded : Bounded 0 Idle ParserExecute.connectPassword connectPassword :=
  .branch (readString_into rfl (.exit _)) (.exit _)

private theorem connectUsername_bounded : Bounded 0 Idle ParserExecute.connectUsername connectUsername :=
  .branch (readString_into rfl connectPassword_bounded) connectPassword_bounded

private theorem connectWillMessage_bounded : Bounded 0 Idle ParserExecute.connectWillMessage connectWillMessage :=
  .branch (readString_into rfl connectUsername_bounded) connectUsername_bounded

private theorem connectWillTopic_bounded : Bounded 0 Idle ParserExecute.connectWillTopic connectWillTopic :=
  .branch (readString_into rfl connectWillMessage_bounded) connectWillMessage_bounded

private theorem connectKeepaliveLow_bounded : Bounded 1 Idle ParserExecute.connectKeepaliveLow connectKeepaliveLow :=
  readByte_bounded (readString_into rfl connectWillTopic_bounded)

private theorem connectKeepalive_bounded : Bounded 1 Idle ParserExecute.connectKeepalive connectKeepalive :=
  readByte_bounded (yieldOn_bounded rfl connectKeepaliveLow_bounded)

private theorem connectFlags_bounded : Bounded 1 Idle ParserExecute.connectFlags connectFlags :=
  readByte_bounded (yieldOn_bounded rfl connectKeepalive_bounded)

private theorem connectProtocolVersion_bounded : Bounded 1 Idle ParserExecute.connectProtocolVersion connectProtocolVersion :=
  readByte_bounded (yieldOn_bounded rfl connectFlags_bounded)

private theorem connackReturnCode_bounded : Bounded 1 Idle ParserExecute.connackReturnCode connackReturnCode :=
  readByte_bounded (.exit _)

private theorem connackUnused_bounded : Bounded 1 Idle ParserExecute.connackUnused connackUnused :=
  readByte_bounded (yieldOn_bounded rfl connackReturnCode_bounded)

private theorem publishContent_bounded : Bounded n Idle ParserExecute.publishContent publishContent := by
  rw [ParserExecute.publishContent,publishContent]
  exact assign_bounded (fun _ => rfl) (.branch (readData_into rfl (.exit _)) (.exit _))

private theorem publishMessageIdLow_bounded : Bounded 1 Idle ParserExecute.publishMessageIdLow publishMessageIdLow :=
  readByte_bounded publishContent_bounded

private theorem publishMessageId_bounded : Bounded 1 Idle ParserExecute.publishMessageId publishMessageId :=
  .branch (readByte_bounded (yieldOn_bounded rfl publishMessageIdLow_bounded)) publishContent_bounded

private theorem publishTopicName_bounded : Bounded 1 Idle ParserExecute.publishTopicName publishTopicName :=
  readString_into rfl (yieldOn_bounded rfl publishMessageId_bounded)

private theorem replyLow_bounded (update : Message → (Reply → Reply) → Message) :
    Bounded 1 Idle (ParserExecute.replyLow update) (replyLow update) := readByte_bounded (.exit _)

private theorem replyHigh_bounded (update : Message → (Reply → Reply) → Message) (outside : c.reads = false) :
    Bounded 1 Idle (ParserExecute.replyHigh update c) (replyHigh update c) :=
  readByte_bounded (yieldOn_bounded outside (replyLow_bounded update))

private theorem subscribeQos_bounded : Bounded 1 Idle ParserExecute.subscribeQos subscribeQos := readByte_bounded (.exit _)

private theorem subscribeTopics_bounded : Bounded 1 Idle ParserExecute.subscribeTopics subscribeTopics := by
  rw [ParserExecute.subscribeTopics,subscribeTopics]
  exact assign_bounded (fun _ => rfl) (readString_into rfl (yieldOn_bounded rfl subscribeQos_bounded))

private theorem subscribeLow_bounded : Bounded 1 Idle ParserExecute.subscribeLow subscribeLow :=
  readByte_bounded (yieldOn_bounded rfl subscribeTopics_bounded)

private theorem subscribe_bounded : Bounded 1 Idle ParserExecute.subscribe subscribe :=
  readByte_bounded (yieldOn_bounded rfl subscribeLow_bounded)

private theorem subackStatus_bounded : Bounded 1 Idle ParserExecute.subackStatus subackStatus := by
  rw [ParserExecute.subackStatus,subackStatus]
  refine assign_bounded (fun _ => rfl) (.check (fun f b f' idle taken => ?_) (fun f b e idle refused => ?_) (.exit _))
  · split at taken
    · cases taken
      exact idle
    · cases taken
  · split at refused
    · cases refused
    · cases refused
      exact idle

private theorem subackLow_bounded : Bounded 1 Idle ParserExecute.subackLow subackLow :=
  readByte_bounded (yieldOn_bounded rfl subackStatus_bounded)

private theorem suback_bounded : Bounded 1 Idle ParserExecute.suback suback :=
  readByte_bounded (yieldOn_bounded rfl subackLow_bounded)

private theorem packetBody_bounded (type : MqttType) : Bounded 0 Idle (ParserExecute.packetBody type) (packetBody type) := by
  have refused : Bounded 0 Idle ParserExecute.unsupported unsupported := by
    intro f _
    exact Locates.exit _ _ rfl
  cases type with
  | connect => exact readString_into rfl (yieldOn_bounded rfl connectProtocolVersion_bounded)
  | connack => exact yieldOn_bounded rfl connackUnused_bounded
  | publish => exact yieldOn_bounded rfl publishTopicName_bounded
  | puback | pubrec | pubrel | pubcomp => exact yieldOn_bounded rfl (replyHigh_bounded _ rfl)
  | subscribe => exact yieldOn_bounded rfl subscribe_bounded
  | suback => exact yieldOn_bounded rfl suback_bounded
  | pingresp | disconnect => exact .exit _
  | none | unsubscribe | unsuback | pingreq | reserved => exact refused

private theorem remainingLength_bounded : Bounded 1 Idle ParserExecute.remainingLength remainingLength := by
  have after : Bounded 0 Idle ParserExecute.afterRemainingLength afterRemainingLength := by
    rw [ParserExecute.afterRemainingLength,afterRemainingLength]
    exact assign_bounded (fun _ => rfl) (.select packetBody_bounded)
  intro f idle src short left
  induction f,src using remainingLength.induct with
  | case1 f src b regs goes_on f' src' ih =>
    have more : (src.data src.currPos &&& 0x80) ≠ 0 ∧ f.regs.digitBytes < 4 := goes_on
    rw [src.unread_cons left,ParserExecute.remainingLength_cons,remainingLength_eq,if_pos more,if_pos more]
    have round : Agrees Waits Idle src' (yieldOn .remainingLength remainingLength f' src')
        (Resumable.yieldOn .remainingLength ParserExecute.remainingLength f' src'.unread) := by
      by_cases end_ : src'.currPos = src'.length
      · rw [yieldOn,if_pos end_,src'.unread_nil end_]
        exact ⟨fun _ member => absurd member List.not_mem_nil,left,rfl,end_,idle⟩
      · have some_left : src'.currPos + 1 ≤ src'.length := Nat.lt_of_le_of_ne left end_
        have nonempty : src'.unread ≠ [] := by simp [src'.unread_cons some_left]
        rw [yieldOn,if_neg end_,Resumable.yieldOn_of_ne_nil nonempty]
        exact ih idle short some_left
    exact round.start.byte left
  | case2 f src b regs ends refused =>
    have last : ¬((src.data src.currPos &&& 0x80) ≠ 0 ∧ f.regs.digitBytes < 4) := ends
    have large : 0x80 ≤ src.data src.currPos := refused
    rw [src.unread_cons left,ParserExecute.remainingLength_cons,remainingLength_eq,if_neg last,if_neg last,if_pos large,if_pos large,
      ← src.unread_cons left]
    refine ⟨fun access member => ?_,Nat.le_of_succ_le left,rfl,idle⟩
    rw [List.mem_singleton.mp member]
    exact left
  | case3 f src b regs ends accepted =>
    have last : ¬((src.data src.currPos &&& 0x80) ≠ 0 ∧ f.regs.digitBytes < 4) := ends
    have small : ¬0x80 ≤ src.data src.currPos := accepted
    rw [src.unread_cons left,ParserExecute.remainingLength_cons,remainingLength_eq,if_neg last,if_neg last,if_neg small,if_neg small]
    exact (after {f with regs := addDigit f.regs (src.data src.currPos)} idle (src.advance 1) short left).start.byte left

theorem resume_bounded (c : Cs) :
    Bounded (if c = .start then 0 else 1) (Waits c) (ParserExecute.resume c) (resume c) := by
  have outside {k : Resumable.Block Cs Frame UInt8 XiState} {l : Block Cs Frame UInt8 XiState} (away : c.reads = false)
      (hk : Bounded 1 Idle k l) : Bounded 1 (Waits c) k l := by
    intro f waits
    rw [Waits,away] at waits
    exact hk f waits
  have firstByte : Bounded 1 Idle ParserExecute.firstByte firstByte :=
    .next (fun _ _ idle => idle) (yieldOn_bounded rfl remainingLength_bounded)
  have first : Bounded 0 Idle (Resumable.yieldOn .firstByte ParserExecute.firstByte) (yieldOn .firstByte Positions.firstByte) :=
    yieldOn_bounded rfl firstByte
  cases c with
  | start => exact fun f idle => first {f with localState := .ok} idle
  | firstByte => exact outside rfl firstByte
  | remainingLength => exact outside rfl remainingLength_bounded
  | connectProtocolName => exact readString_again rfl (yieldOn_bounded rfl connectProtocolVersion_bounded)
  | connectProtocolVersion => exact outside rfl connectProtocolVersion_bounded
  | connectFlags => exact outside rfl connectFlags_bounded
  | connectKeepalive => exact outside rfl connectKeepalive_bounded
  | connectKeepaliveLow => exact outside rfl connectKeepaliveLow_bounded
  | connectClientId => exact readString_again rfl connectWillTopic_bounded
  | connectWillTopic => exact readString_again rfl connectWillMessage_bounded
  | connectWillMessage => exact readString_again rfl connectUsername_bounded
  | connectUsername => exact readString_again rfl connectPassword_bounded
  | connectPassword => exact readString_again rfl (.exit _)
  | connackUnused => exact outside rfl connackUnused_bounded
  | connackReturnCode => exact outside rfl connackReturnCode_bounded
  | publish => exact outside rfl publishTopicName_bounded
  | publishTopicName => exact readString_again rfl (yieldOn_bounded rfl publishMessageId_bounded)
  | publishMessageId => exact outside rfl publishMessageId_bounded
  | publishMessageIdLow => exact outside rfl publishMessageIdLow_bounded
  | publishContent => exact readData_again rfl (.exit _)
  | puback | pubrec | pubrel | pubcomp => exact outside rfl (replyHigh_bounded _ rfl)
  | pubackLow | pubrecLow | pubrelLow | pubcompLow => exact outside rfl (replyLow_bounded _)
  | subscribe => exact outside rfl subscribe_bounded
  | subscribeLow => exact outside rfl subscribeLow_bounded
  | subscribeTopics => exact outside rfl subscribeTopics_bounded
  | subscribeName => exact readString_again rfl (yieldOn_bounded rfl subscribeQos_bounded)
  | subscribeQos => exact outside rfl subscribeQos_bounded
  | suback => exact outside rfl suback_bounded
  | subackLow => exact outside rfl subackLow_bounded
  | subackStatus => exact outside rfl subackStatus_bounded

end Bounds

end XivelyClient.Mqtt.ParserExecute.Positions

namespace XivelyClient.Mqtt
open ParserExecute Positioned Runs

abbrev ParserActivation := Activation Cs Frame XiState

/-- `xi_mqtt_parser_execute` on a buffer. -/
def parserExecuteAt (parser : Parser) (localState : XiState) (message : Message) (src : Source UInt8) : ParserActivation :=
  Positions.resume parser.cs ⟨localState,parser.readCs,parser.toRegisters,message⟩ src

/-- What the caller finds: the answer with the rest of the buffer. -/
def Executed.ofActivation (src : Source UInt8) (act : ParserActivation) : Executed :=
  let rest := Source.unread {src with currPos := act.currPos}
  match act.stop with
  | .more c f => .returned .wantRead {f.regs with cs := c,readCs := f.readCs} f.localState f.message rest
  | .done state f => .returned state {f.regs with cs := .start,readCs := f.readCs} f.localState f.message rest
  | .fault => .fault

/-- The parser as its calls leave it: in the middle of a string or of a payload the static local is WANT_READ. -/
def Parser.Waits (parser : Parser) (localState : XiState) : Prop :=
  if parser.cs.reads then localState = .wantRead else parser.readCs = .start

/-- A parser that goes on in the middle of a message needs something to read. -/
def CanResume (parser : Parser) (src : Source UInt8) : Prop := parser.cs = .start ∨ src.currPos < src.length

theorem parserExecuteAt_agrees {parser : Parser} {localState : XiState} {src : Source UInt8} (message : Message)
    (waits : parser.Waits localState) (readable : CanResume parser src) (within : src.currPos ≤ src.length)
    (short : src.length < 2 ^ 32) :
    Agrees Positions.Waits Idle src (parserExecuteAt parser localState message src)
      (resume parser.cs ⟨localState,parser.readCs,parser.toRegisters,message⟩ src.unread) := by
  refine Positions.resume_bounded parser.cs ⟨localState,parser.readCs,parser.toRegisters,message⟩ waits src short ?_
  rcases readable with start | left
  · rw [if_pos start]
    exact within
  · split <;> omega

/-- On its buffer the parser does what it does on the bytes that are left there. -/
theorem parserExecuteAt_refines {parser : Parser} {localState : XiState} {src : Source UInt8} (message : Message)
    (waits : parser.Waits localState) (readable : CanResume parser src) (within : src.currPos ≤ src.length)
    (short : src.length < 2 ^ 32) :
    Executed.ofActivation src (parserExecuteAt parser localState message src) = parserExecute parser localState message src.unread := by
  have ends := (parserExecuteAt_agrees message waits readable within short).ends
  rw [parserExecute]
  simp only [Executed.ofActivation]
  generalize parserExecuteAt parser localState message src = act at ends
  cases h : act.stop with
  | more c f =>
    rw [h] at ends
    obtain ⟨same,end_,_⟩ := ends
    rw [same,Source.unread_nil _ end_]
    rfl
  | done state f =>
    rw [h] at ends
    rw [ends.1]
    rfl
  | fault =>
    rw [h] at ends
    rw [show resume _ _ _ = _ from ends]
    rfl

section Feeding

/-- A caller with one parser and the buffer it has now. -/
structure Feeding where
  parser : Parser
  localState : XiState
  message : Message
  source : Source UInt8

/-- A buffer arrives, the parser is set up anew, another message is to be filled, or the parser is called. -/
inductive FeedEvent
  | chunk (data : Nat → UInt8) (length : UInt32)
  | init
  | fill (message : Message)
  | execute

namespace Feeding

def execute (feed : Feeding) : ParserActivation :=
  parserExecuteAt feed.parser feed.localState feed.message feed.source

/-- There is no next state when an append has written outside its descriptor. -/
def perform (feed : Feeding) : FeedEvent → Option Feeding
  | .chunk data length => some {feed with source := ⟨data,length.toNat,0⟩}
  | .init => some {feed with parser := parserInit}
  | .fill message => some {feed with message := message}
  | .execute =>
    let source := {feed.source with currPos := feed.execute.currPos}
    match feed.execute.stop with
    | .more c f => some ⟨{f.regs with cs := c,readCs := f.readCs},f.localState,f.message,source⟩
    | .done _ f => some ⟨{f.regs with cs := .start,readCs := f.readCs},f.localState,f.message,source⟩
    | .fault => none

/-- Chunks are not empty, and a parser that wants to read is called when something has arrived. -/
def Allowed (feed : Feeding) : FeedEvent → Prop
  | .chunk _ length => 0 < length
  | .execute => CanResume feed.parser feed.source
  | .init | .fill _ => True

def StaysInside (feed : Feeding) : FeedEvent → Prop
  | .execute =>
    (∀ access ∈ feed.execute.accesses, access.Inside feed.source.length) ∧ feed.execute.currPos ≤ feed.source.length
  | .chunk .. | .init | .fill _ => True

def begin (localState : XiState) (message : Message) : Feeding := ⟨parserInit,localState,message,⟨fun _ => 0,0,0⟩⟩

structure Sound (feed : Feeding) : Prop where
  waits : feed.parser.Waits feed.localState
  within : feed.source.currPos ≤ feed.source.length
  short : feed.source.length < 2 ^ 32

variable {feed feed' : Feeding}

theorem Sound.agrees (sound : feed.Sound) (allowed : feed.Allowed .execute) :
    Agrees Positions.Waits Idle feed.source feed.execute
      (resume feed.parser.cs ⟨feed.localState,feed.parser.readCs,feed.parser.toRegisters,feed.message⟩ feed.source.unread) :=
  parserExecuteAt_agrees feed.message sound.waits allowed sound.within sound.short

theorem Sound.staysInside (sound : feed.Sound) (event : FeedEvent) (allowed : feed.Allowed event) : feed.StaysInside event := by
  cases event with
  | execute => exact ⟨(sound.agrees allowed).inside,(sound.agrees allowed).within⟩
  | chunk data length => trivial
  | init => trivial
  | fill message => trivial

theorem Sound.perform (sound : feed.Sound) (event : FeedEvent) (allowed : feed.Allowed event)
    (performed : feed.perform event = some feed') : feed'.Sound := by
  cases event with
  | chunk data length =>
    cases performed
    exact ⟨sound.waits,Nat.zero_le _,length.toNat_lt⟩
  | init =>
    cases performed
    exact ⟨rfl,sound.within,sound.short⟩
  | fill message =>
    cases performed
    exact ⟨sound.waits,sound.within,sound.short⟩
  | execute =>
    obtain ⟨_,within,ends⟩ := sound.agrees allowed
    simp only [Feeding.perform] at performed
    generalize feed.execute = act at within ends performed
    obtain ⟨stop,currPos,accesses⟩ := act
    cases stop with
    | more c f =>
      cases performed
      exact ⟨ends.2.2,within,sound.short⟩
    | done state f =>
      cases performed
      exact ⟨ends.2,within,sound.short⟩
    | fault => cases performed

/-- Whatever arrives, and however it is cut, no call reads behind its buffer. -/
theorem each_staysInside (localState : XiState) (message : Message) (events : List FeedEvent)
    (allowed : Each perform Allowed (begin localState message) events) :
    Each perform StaysInside (begin localState message) events := by
  have start : (begin localState message).Sound := ⟨rfl,Nat.zero_le _,Nat.two_pow_pos 32⟩
  exact each_of_each (fun _ event sound may => sound.staysInside event may)
    (fun _ event _ sound may performed => sound.perform event may performed) start allowed

theorem each_staysInside_split :
    Each perform StaysInside (begin .ok {})
      [.chunk (fun _ => 0x40) 1,.execute,.chunk (fun i => if i = 0 then 2 else 0) 3,.execute,.init] := by
  have one : (0 : UInt32) < 1 := by decide
  have three : (0 : UInt32) < 3 := by decide
  refine each_staysInside .ok {} _ ⟨one,fun first arrived => ⟨.inr ?_,fun second _ => ⟨three,fun third later => ⟨.inr ?_,
    fun fourth _ => ⟨trivial,fun _ _ => trivial⟩⟩⟩⟩⟩
  · cases arrived
    exact UInt32.lt_iff_toNat_lt.mp one
  · cases later
    exact UInt32.lt_iff_toNat_lt.mp three

end Feeding

end Feeding

end XivelyClient.Mqtt
