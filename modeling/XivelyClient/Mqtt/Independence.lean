import XivelyClient.Lib.Runs
import XivelyClient.Mqtt.Parser

/-! Several parsers in one process. They share one variable, the static local of the parser function, which
survives a suspension; a parser that is resumed inside a reader of a string or of a payload looks at it. -/
namespace XivelyClient.Mqtt
open Resumable Runs

namespace ParserExecute

/-- The labels inside READ_STRING and READ_DATA. -/
def Cs.reads : Cs → Bool
  | .connectProtocolName | .connectClientId | .connectWillTopic | .connectWillMessage | .connectUsername
  | .connectPassword | .publishTopicName | .publishContent | .subscribeName => true
  | _ => false

/-- The frames differ in the static local only. -/
def ButStatic (f g : Frame) : Prop := ∃ localState, g = {f with localState := localState}

/-- A parser that stops inside a reader leaves WANT_READ in the static local. -/
def LeavesWaiting (c : Cs) (f : Frame) : Prop := c.reads = true → f.localState = .wantRead

abbrev Blind (k : Block Cs Frame UInt8 XiState) : Prop := Respects ButStatic LeavesWaiting k

section Blocks

variable {reader : ReadCs → Block ReadCs Reading UInt8 XiState} {slot : Slot} {c : Cs}
  {k : Block Cs Frame UInt8 XiState}

private theorem blind_yieldOn (free : c.reads = false) (hk : Blind k) : Blind (yieldOn c k) := by
  refine .yieldOn (fun f reads => ?_) hk
  rw [free] at reads
  contradiction

private theorem blind_readByte {update : Message → UInt8 → Message} (hk : Blind k) :
    Blind (readByte update k) := by
  refine .next ?_ hk
  rintro f _ b ⟨localState,rfl⟩
  exact ⟨localState,rfl⟩

private theorem blind_readInto (hk : Blind k) : Blind (readInto reader slot c k) := by
  refine .call _ ?_ ?_ ?_ hk
  · rintro f _ ⟨localState,rfl⟩
    exact ⟨rfl,rfl⟩
  · rintro f _ d r ⟨localState,rfl⟩
    exact ⟨⟨_,rfl⟩,fun _ => rfl⟩
  · rintro f _ state r ⟨localState,rfl⟩
    exact ⟨_,rfl⟩

private theorem blind_branch {p : Frame → Bool} {l : Block Cs Frame UInt8 XiState}
    (seen : ∀ f localState, p f = p {f with localState := localState}) (hk : Blind k) (hl : Blind l) :
    Blind (branch p k l) := by
  refine .branch ?_ hk hl
  rintro f _ ⟨localState,rfl⟩
  exact seen f localState

private theorem connectPassword_blind : Blind connectPassword :=
  blind_branch (fun _ _ => rfl) (blind_readInto (.exit _)) (.exit _)

private theorem connectUsername_blind : Blind connectUsername :=
  blind_branch (fun _ _ => rfl) (blind_readInto connectPassword_blind) connectPassword_blind

private theorem connectWillMessage_blind : Blind connectWillMessage :=
  blind_branch (fun _ _ => rfl) (blind_readInto connectUsername_blind) connectUsername_blind

private theorem connectWillTopic_blind : Blind connectWillTopic :=
  blind_branch (fun _ _ => rfl) (blind_readInto connectWillMessage_blind) connectWillMessage_blind

private theorem connectKeepaliveLow_blind : Blind connectKeepaliveLow :=
  blind_readByte (blind_readInto connectWillTopic_blind)

private theorem connectKeepalive_blind : Blind connectKeepalive :=
  blind_readByte (blind_yieldOn rfl connectKeepaliveLow_blind)

private theorem connectFlags_blind : Blind connectFlags := blind_readByte (blind_yieldOn rfl connectKeepalive_blind)

private theorem connectProtocolVersion_blind : Blind connectProtocolVersion :=
  blind_readByte (blind_yieldOn rfl connectFlags_blind)

private theorem publishContent_blind : Blind publishContent := by
  refine .assign ?_ (blind_branch (fun _ _ => rfl) (blind_readInto (.exit _)) (.exit _))
  rintro f _ ⟨localState,rfl⟩
  exact ⟨localState,rfl⟩

private theorem publishMessageId_blind : Blind publishMessageId :=
  blind_branch (fun _ _ => rfl) (blind_readByte (blind_yieldOn rfl (blind_readByte publishContent_blind)))
    publishContent_blind

private theorem publishTopicName_blind : Blind publishTopicName :=
  blind_readInto (blind_yieldOn rfl publishMessageId_blind)

private theorem replyLow_blind (update : Message → (Reply → Reply) → Message) : Blind (replyLow update) :=
  blind_readByte (.exit _)

private theorem replyHigh_blind (update : Message → (Reply → Reply) → Message) {low : Cs} (free : low.reads = false) :
    Blind (replyHigh update low) := blind_readByte (blind_yieldOn free (replyLow_blind update))

private theorem subscribeQos_blind : Blind subscribeQos := blind_readByte (.exit _)

private theorem subscribeTopics_blind : Blind subscribeTopics := by
  refine .assign ?_ (blind_readInto (blind_yieldOn rfl subscribeQos_blind))
  rintro f _ ⟨localState,rfl⟩
  exact ⟨localState,rfl⟩

private theorem subscribeLow_blind : Blind subscribeLow :=
  blind_readByte (blind_yieldOn rfl subscribeTopics_blind)

private theorem subackStatus_blind : Blind subackStatus := by
  refine .assign ?_ (.check ?_ (.exit _))
  · rintro f _ ⟨localState,rfl⟩
    exact ⟨localState,rfl⟩
  · rintro f _ b ⟨localState,rfl⟩
    dsimp only
    split
    · exact ⟨_,rfl⟩
    · exact ⟨rfl,_,rfl⟩

private theorem subackLow_blind : Blind subackLow := blind_readByte (blind_yieldOn rfl subackStatus_blind)

private theorem packetBody_blind (type : MqttType) : Blind (packetBody type) := by
  have refused : Blind unsupported := by
    refine .assign ?_ (.exit _)
    rintro f _ ⟨localState,rfl⟩
    exact ⟨localState,rfl⟩
  cases type with
  | connect => exact blind_readInto (blind_yieldOn rfl connectProtocolVersion_blind)
  | connack => exact blind_yieldOn rfl (blind_readByte (blind_yieldOn rfl (blind_readByte (.exit _))))
  | publish => exact blind_yieldOn rfl publishTopicName_blind
  | puback | pubrec | pubrel | pubcomp => exact blind_yieldOn rfl (replyHigh_blind _ rfl)
  | subscribe => exact blind_yieldOn rfl (blind_readByte (blind_yieldOn rfl subscribeLow_blind))
  | suback => exact blind_yieldOn rfl (blind_readByte (blind_yieldOn rfl subackLow_blind))
  | pingresp | disconnect => exact .exit _
  | none | unsubscribe | unsuback | pingreq | reserved => exact refused

private theorem remainingLength_blind : Blind remainingLength := by
  have after : Blind afterRemainingLength := by
    refine .assign ?_ (.select ?_ packetBody_blind)
    · rintro f _ ⟨localState,rfl⟩
      exact ⟨localState,rfl⟩
    · rintro f _ ⟨localState,rfl⟩
      rfl
  intro f g same src
  induction src generalizing f g with
  | nil =>
    obtain ⟨localState,rfl⟩ := same
    exact ⟨trivial,fun c f' stopped => by simp [remainingLength] at stopped⟩
  | cons b src ih =>
    obtain ⟨localState,rfl⟩ := same
    rw [remainingLength_cons,remainingLength_cons]
    dsimp only
    split
    · cases src with
      | nil =>
        refine ⟨⟨rfl,_,rfl⟩,fun c f' stopped => ?_⟩
        obtain ⟨rfl,_⟩ : Cs.remainingLength = c ∧ _ := by simpa [yieldOn] using stopped
        intro reads
        contradiction
      | cons d src => exact ih _ _ ⟨_,rfl⟩
    · split
      · exact ⟨⟨rfl,⟨_,rfl⟩,rfl⟩,fun c f' stopped => by simp at stopped⟩
      · exact after _ _ ⟨_,rfl⟩ src

/-- Wherever a parser is resumed, it behaves like a block that does not look at the static local, as long
as that is not OK at a label inside a reader. -/
theorem resume_blind (c : Cs) : ∃ k, Blind k ∧
    ∀ f src, (c.reads = true → f.localState ≠ .ok) → resume c f src = k f src := by
  have outside {k : Block Cs Frame UInt8 XiState} (same : resume c = k) (hk : Blind k) : ∃ k, Blind k ∧
      ∀ f src, (c.reads = true → f.localState ≠ .ok) → resume c f src = k f src :=
    ⟨k,hk,fun f src _ => by rw [same]⟩
  have inside {reader : ReadCs → Block ReadCs Reading UInt8 XiState} {slot : Slot}
      {k : Block Cs Frame UInt8 XiState} (reads : c.reads = true) (same : resume c = readAgain reader slot c k)
      (hk : Blind k) : ∃ k, Blind k ∧
        ∀ f src, (c.reads = true → f.localState ≠ .ok) → resume c f src = k f src := by
    refine ⟨readInto reader slot c k,blind_readInto hk,fun f src waiting => ?_⟩
    rw [same]
    exact branch_of_true (by simpa using waiting reads)
  have firstByte : Blind firstByte := by
    refine .next ?_ (blind_yieldOn rfl remainingLength_blind)
    rintro f _ b ⟨localState,rfl⟩
    exact ⟨localState,rfl⟩
  have start : Blind start := by
    refine .assign ?_ (blind_yieldOn rfl firstByte)
    rintro f _ ⟨localState,rfl⟩
    exact ⟨.ok,rfl⟩
  have returnCode : Blind connackReturnCode := blind_readByte (.exit _)
  have unused : Blind connackUnused := blind_readByte (blind_yieldOn rfl returnCode)
  have idLow : Blind publishMessageIdLow := blind_readByte publishContent_blind
  have subscribe : Blind subscribe := blind_readByte (blind_yieldOn rfl subscribeLow_blind)
  have suback : Blind suback := blind_readByte (blind_yieldOn rfl subackLow_blind)
  cases c with
  | start => exact outside rfl start
  | firstByte => exact outside rfl firstByte
  | remainingLength => exact outside rfl remainingLength_blind
  | connectProtocolName => exact inside rfl rfl (blind_yieldOn rfl connectProtocolVersion_blind)
  | connectProtocolVersion => exact outside rfl connectProtocolVersion_blind
  | connectFlags => exact outside rfl connectFlags_blind
  | connectKeepalive => exact outside rfl connectKeepalive_blind
  | connectKeepaliveLow => exact outside rfl connectKeepaliveLow_blind
  | connectClientId => exact inside rfl rfl connectWillTopic_blind
  | connectWillTopic => exact inside rfl rfl connectWillMessage_blind
  | connectWillMessage => exact inside rfl rfl connectUsername_blind
  | connectUsername => exact inside rfl rfl connectPassword_blind
  | connectPassword => exact inside rfl rfl (.exit _)
  | connackUnused => exact outside rfl unused
  | connackReturnCode => exact outside rfl returnCode
  | publish => exact outside rfl publishTopicName_blind
  | publishTopicName => exact inside rfl rfl (blind_yieldOn rfl publishMessageId_blind)
  | publishMessageId => exact outside rfl publishMessageId_blind
  | publishMessageIdLow => exact outside rfl idLow
  | publishContent => exact inside rfl rfl (.exit _)
  | puback | pubrec | pubrel | pubcomp => exact outside rfl (replyHigh_blind _ rfl)
  | pubackLow | pubrecLow | pubrelLow | pubcompLow => exact outside rfl (replyLow_blind _)
  | subscribe => exact outside rfl subscribe
  | subscribeLow => exact outside rfl subscribeLow_blind
  | subscribeTopics => exact outside rfl subscribeTopics_blind
  | subscribeName => exact inside rfl rfl (blind_yieldOn rfl subscribeQos_blind)
  | subscribeQos => exact outside rfl subscribeQos_blind
  | suback => exact outside rfl suback
  | subackLow => exact outside rfl subackLow_blind
  | subackStatus => exact outside rfl subackStatus_blind

end Blocks

end ParserExecute

/-- One connection's parser with the message it fills, and what its calls have answered: the answer, the
message and the bytes left unread, or nothing where the call has left its buffer. -/
structure Instance where
  parser : Parser := parserInit
  message : Message := {}
  returned : List (Option (XiState × Message × List UInt8)) := []
  deriving DecidableEq, Repr

inductive ParserCall
  | execute (src : List UInt8)
  | begin
  deriving DecidableEq, Repr

namespace Instance

/-- A call of the instance, with the static local before and behind it. `begin` is `xi_mqtt_parser_init` and
a new message. -/
def call (instance_ : Instance) (localState : XiState) : ParserCall → XiState × Instance
  | .begin => (localState,{instance_ with parser := parserInit,message := {}})
  | .execute src =>
    match parserExecute instance_.parser localState instance_.message src with
    | .fault => (localState,{instance_ with returned := instance_.returned ++ [none]})
    | .returned answer parser localState message rest =>
      (localState,⟨parser,message,instance_.returned ++ [some (answer,message,rest)]⟩)

/-- The instance is not inside a reader, or the static local is not OK. -/
def Waits (instance_ : Instance) (localState : XiState) : Prop :=
  instance_.parser.cs.reads = true → localState ≠ .ok

/-- An instance that waits does the same whatever the static local is, and waits again. -/
theorem call_same (instance_ : Instance) {s t : XiState} (hs : instance_.Waits s) (ht : instance_.Waits t)
    (call : ParserCall) : (instance_.call s call).2 = (instance_.call t call).2 ∧
      (instance_.call t call).2.Waits (instance_.call t call).1 := by
  cases call with
  | begin => exact ⟨rfl,fun reads => by simp [Instance.call,parserInit,ParserExecute.Cs.reads] at reads⟩
  | execute src =>
    obtain ⟨parser,message,returned⟩ := instance_
    obtain ⟨k,blind,eq⟩ := ParserExecute.resume_blind parser.cs
    have first := eq ⟨s,parser.readCs,parser.toRegisters,message⟩ src hs
    have second := eq ⟨t,parser.readCs,parser.toRegisters,message⟩ src ht
    obtain ⟨related,_⟩ := blind ⟨s,parser.readCs,parser.toRegisters,message⟩
      ⟨t,parser.readCs,parser.toRegisters,message⟩ ⟨t,rfl⟩ src
    obtain ⟨_,held⟩ := blind ⟨t,parser.readCs,parser.toRegisters,message⟩
      ⟨t,parser.readCs,parser.toRegisters,message⟩ ⟨t,rfl⟩ src
    simp only [Instance.call,parserExecute,first,second]
    revert related held
    cases k ⟨s,parser.readCs,parser.toRegisters,message⟩ src <;>
      cases k ⟨t,parser.readCs,parser.toRegisters,message⟩ src <;> intro related held
    case more.more c f d g =>
      obtain ⟨rfl,localState,rfl⟩ := related
      refine ⟨rfl,fun reads => ?_⟩
      have waiting : localState = .wantRead := held _ _ rfl reads
      subst waiting
      simp [Executed.ofStep]
    case done.done r f rest q g rest' =>
      obtain ⟨rfl,⟨localState,rfl⟩,rfl⟩ := related
      exact ⟨rfl,fun reads => by simp [Executed.ofStep,ParserExecute.Cs.reads] at reads⟩
    case fault.fault => exact ⟨rfl,ht⟩
    all_goals exact absurd related id

end Instance

section Interleaving

variable {ι : Type} [DecidableEq ι]

structure Parsers (ι : Type) where
  localState : XiState
  instances : ι → Instance

namespace Parsers

def step (w : Parsers ι) (event : ι × ParserCall) : Parsers ι :=
  let after := (w.instances event.1).call w.localState event.2
  ⟨after.1,Function.update w.instances event.1 after.2⟩

def initial (localState : XiState) : Parsers ι := ⟨localState,fun _ => {}⟩

/-- The instance whose turn it is does not find OK in the static local inside a reader. -/
def Undisturbed (w : Parsers ι) (event : ι × ParserCall) : Prop := (w.instances event.1).Waits w.localState

theorem step_other (w : Parsers ι) {event : ι × ParserCall} {i : ι} (other : event.1 ≠ i) :
    (step w event).instances i = w.instances i := by
  exact Function.update_of_ne (Ne.symm other) _ _

theorem step_own (w : Parsers ι) (call : ParserCall) (i : ι) :
    (step w (i,call)).instances i = ((w.instances i).call w.localState call).2 := by
  exact Function.update_self _ _ _

/-- Two runs, one of them with the calls of one instance only, keep that instance the same. -/
theorem final_alone {w v : Parsers ι} {i : ι} (events : List (ι × ParserCall))
    (same : w.instances i = v.instances i) (waits : (v.instances i).Waits v.localState)
    (undisturbed : Admissible step Undisturbed w events) : (final step w events).instances i =
      (final step v (events.filter fun event => event.1 = i)).instances i := by
  induction events generalizing w v with
  | nil => exact same
  | cons event events ih =>
    obtain ⟨now,later⟩ := undisturbed
    by_cases own : event.1 = i
    · obtain ⟨who,call⟩ := event
      obtain rfl : who = i := own
      have waiting : (v.instances who).Waits w.localState := by
        rw [← same]
        exact now
      obtain ⟨agree,again⟩ := (v.instances who).call_same waiting waits call
      rw [List.filter_cons_of_pos (by simp),final_cons,final_cons]
      refine ih ?_ ?_ later
      · rw [step_own,step_own,same,agree]
      · rw [step_own]
        exact again
    · rw [List.filter_cons_of_neg (by simpa using own),final_cons]
      exact ih ((step_other w own).trans same) waits later

/-- As long as no instance is resumed inside a reader with OK in the static local, every instance returns what
it returns when the others are never called. -/
theorem independent (localState : XiState) (events : List (ι × ParserCall))
    (undisturbed : Admissible step Undisturbed (initial localState) events) (i : ι) :
    (final step (initial localState) events).instances i =
      (final step (initial localState) (events.filter fun event => event.1 = i)).instances i :=
  final_alone events rfl (fun reads => by simp [initial,parserInit,ParserExecute.Cs.reads] at reads) undisturbed

/-- Two parsers take turns inside the topics of a SUBSCRIBE and of a PUBLISH. -/
theorem independent_topics :
    (final step (initial .ok) [(true,.execute [0x82,6,0,1,0]),(false,.execute [0x30,7,0,4,0x61]),(true,.execute [1]),(false,.execute [0x62]),
        (true,.execute [0x61,0])]).instances true =
      (final step (initial .ok) [(true,.execute [0x82,6,0,1,0]),(true,.execute [1]),(true,.execute [0x61,0])]).instances true :=
  independent .ok [(true,.execute [0x82,6,0,1,0]),(false,.execute [0x30,7,0,4,0x61]),(true,.execute [1]),(false,.execute [0x62]),
      (true,.execute [0x61,0])]
    ⟨fun reads => by contradiction,fun reads => by contradiction,fun _ => by decide +kernel,fun _ => by decide +kernel,
      fun _ => by decide +kernel,trivial⟩ true

/-- A SUBSCRIBE is suspended in the length of its topic name. Another parser begins a message, which puts OK into
the static local, and the next byte of the SUBSCRIBE is taken for its QoS: the name is left out. -/
theorem independent_fails :
    ((final step (initial .ok) [(true,.execute [0x82,0x06,0x00,0x01,0x00]),(false,.execute [0x30]),
      (true,.execute [0x01])]).instances true).returned.getLast? ≠
    ((final step (initial .ok) [(true,.execute [0x82,0x06,0x00,0x01,0x00]),
      (true,.execute [0x01])]).instances true).returned.getLast? := by
  decide +kernel

end Parsers

end Interleaving

end XivelyClient.Mqtt
