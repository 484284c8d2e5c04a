import XivelyClient.Mqtt.Parser

/-! Cutting the input does not matter to the parser: every block is incremental, the
copy loop because appends compose, the rest by the rules of resumable procedures. -/
namespace XivelyClient.Mqtt.ParserExecute
open Resumable

theorem subSize_add {a b n : Nat} (room : n ≤ subSize a b) : subSize a (b + n) = subSize a b - n := by
  simp only [subSize] at room ⊢
  have split := Nat.mod_add_div (a + 2 ^ 64 - b) (2 ^ 64)
  have below := Nat.mod_lt (a + 2 ^ 64 - b) (show 0 < 2 ^ 64 by omega)
  have rest : a + 2 ^ 64 - (b + n) =
      ((a + 2 ^ 64 - b) % 2 ^ 64 - n) + 2 ^ 64 * ((a + 2 ^ 64 - b) / 2 ^ 64) := by omega
  rw [rest,Nat.add_mul_mod_self_left,Nat.mod_eq_of_lt (by omega)]

private theorem take_min_append (a b : List UInt8) (t : Nat) (short : a.length < t) :
    (a ++ b).take (min t (a ++ b).length) = a ++ b.take (min (t - a.length) b.length) := by
  rw [List.take_append,List.take_of_length_le (by simp; omega)]
  congr 2
  simp
  omega

private theorem drop_min_append (a b : List UInt8) (t : Nat) (short : a.length < t) :
    (a ++ b).drop (min t (a ++ b).length) = b.drop (min (t - a.length) b.length) := by
  rw [List.drop_append,List.drop_of_length_le (by simp; omega),List.nil_append]
  congr 1
  simp
  omega

/-- The loop stops with the source used up, so going on with `b` appends what one round over both would. -/
theorem copyLoop_incremental {resume : ReadCs → Block ReadCs Reading UInt8 XiState} {again : ReadCs}
    {counted : Bool} (hresume : resume again = copyLoop again counted) :
    Incremental resume (fun _ => True) (copyLoop again counted) := by
  rintro ⟨regs,dst⟩ _ a b _
  obtain ⟨t,toRead⟩ : ∃ t, subSize regs.strLength (dstDesc dst).length = t := ⟨_,rfl⟩
  by_cases finished : t = 0
  · simp [copyLoop,toRead,finished]
  rcases Nat.lt_or_ge a.length t with short | enough
  · have joined := (dstDesc dst).appendDataResize_append a (b.take (min (t - a.length) b.length))
    simp only [copyLoop,toRead,if_neg finished,take_min_append a b t short,drop_min_append a b t short,
      Nat.min_eq_right short.le,List.take_length,joined]
    cases first : (dstDesc dst).appendDataResize true a with
    | none => rfl
    | some result =>
      obtain ⟨state,desc⟩ := result
      obtain ⟨rfl,data⟩ := DataDesc.appendDataResize_ok _ _ _ _ first
      have moved : desc.length = (dstDesc dst).length + a.length := by
        simp [DataDesc.length,data]
      have left : subSize regs.strLength desc.length = t - a.length := by
        rw [moved,subSize_add (by omega),toRead]
      have counts : a.length + min (t - a.length) b.length = min t (a ++ b).length := by
        simp
        omega
      have remains : t - a.length - min (t - a.length) b.length = t - min t (a ++ b).length := by omega
      have unread : t - a.length ≠ 0 := by omega
      simp only [feed_more,hresume,copyLoop,dstDesc,Option.getD_some,countCopied_strLength,left,
        if_neg unread]
      cases second : desc.appendDataResize true (b.take (min (t - a.length) b.length)) with
      | none => rfl
      | some result =>
        obtain ⟨state,desc'⟩ := result
        obtain ⟨rfl,_⟩ := DataDesc.appendDataResize_ok _ _ _ _ second
        simp only [remains,countCopied_add,counts]
  · have lengthA : min t a.length = t := Nat.min_eq_left enough
    have lengthAB : min t (a ++ b).length = t := Nat.min_eq_left (by simp; omega)
    simp only [copyLoop,toRead,if_neg finished,lengthA,lengthAB,List.take_append_of_le_length enough,
      List.drop_append_of_le_length enough,Nat.sub_self,if_true]
    cases (dstDesc dst).appendDataResize true (a.take t) with
    | none => rfl
    | some result =>
      obtain ⟨state,desc⟩ := result
      cases state <;> rfl

theorem readString_incremental : Incremental readString (fun _ => True) (readString .start) := by
  have body : Guarded readString (fun _ => True) stringBody := (copyLoop_incremental rfl).guarded
  have low : Guarded readString (fun _ => True) stringLow := .next (fun _ _ _ => trivial) (.yieldOn rfl body)
  have high : Guarded readString (fun _ => True) stringHigh := .next (fun _ _ _ => trivial) (.yieldOn rfl low)
  have first : Incremental readString (fun _ => True) (yieldOn .stringHigh stringHigh) := .yieldOn rfl high
  exact fun s _ => first _ trivial

theorem readData_incremental : Incremental readData (fun _ => True) (readData .start) := by
  have body : Guarded readData (fun _ => True) dataBody := (copyLoop_incremental rfl).guarded
  have first : Incremental readData (fun _ => True) (yieldOn .dataBody dataBody) := .yieldOn rfl body
  exact fun s _ => first _ trivial

/-- Outside the readers `read_cs` is at its start. -/
def Idle (f : Frame) : Prop := f.readCs = .start

section Readers

variable {reader : ReadCs → Block ReadCs Reading UInt8 XiState} {slot : Slot} {c : Cs}
  {k : Block Cs Frame UInt8 XiState}

private theorem settle_wait (f : Frame) (d : ReadCs) (r : Reading) (st : Step ReadCs Reading UInt8 XiState) :
    (readCall reader slot).settle c ((readCall reader slot).wait f d r) k st =
      (readCall reader slot).settle c f k st := by
  cases st <;> simp [Call.settle,readCall]

/-- A reader's label goes round the macro's loop once more and finds the reader where it stopped. -/
private theorem readAgain_wait (f : Frame) (d : ReadCs) (r : Reading) (b : List UInt8) :
    readAgain reader slot c k ((readCall reader slot).wait f d r) b =
      (readCall reader slot).settle c f k (reader d r b) := by
  have loops : readAgain reader slot c k ((readCall reader slot).wait f d r) b =
      readInto reader slot c k ((readCall reader slot).wait f d r) b := rfl
  rw [loops,readInto,Call.run,settle_wait]
  simp [readCall]

theorem readInto_incremental (hreader : Incremental reader (fun _ => True) (reader .start))
    (hresume : resume c = readAgain reader slot c k) (hk : Incremental resume Idle k) :
    Incremental resume Idle (readInto reader slot c k) := by
  refine .call (readCall reader slot) (fun _ => True) hreader ?_ ?_ ?_ hk
  · intro f hf
    exact ⟨hf,trivial⟩
  · intro f d r b
    rw [hresume]
    exact readAgain_wait f d r b
  · intro f state r _ _
    rfl

theorem readByte_guarded {update : Message → UInt8 → Message} (hk : Incremental resume Idle k) :
    Guarded resume Idle (readByte update k) := .next (fun _ _ h => h) hk

theorem readAssign_incremental {update : Frame → Frame} (keep : ∀ f, (update f).readCs = f.readCs)
    (hk : Incremental resume Idle k) : Incremental resume Idle (assign update k) :=
  .assign (fun f hf => (keep f).trans hf) hk

end Readers

private theorem connectPassword_incremental : Incremental resume Idle connectPassword :=
  .branch (readInto_incremental readString_incremental rfl (.exit _)) (.exit _)

private theorem connectUsername_incremental : Incremental resume Idle connectUsername :=
  .branch (readInto_incremental readString_incremental rfl connectPassword_incremental)
    connectPassword_incremental

private theorem connectWillMessage_incremental : Incremental resume Idle connectWillMessage :=
  .branch (readInto_incremental readString_incremental rfl connectUsername_incremental)
    connectUsername_incremental

private theorem connectWillTopic_incremental : Incremental resume Idle connectWillTopic :=
  .branch (readInto_incremental readString_incremental rfl connectWillMessage_incremental)
    connectWillMessage_incremental

private theorem connectKeepalive_guarded : Guarded resume Idle connectKeepalive := by
  have clientId : Incremental resume Idle connectClientId :=
    readInto_incremental readString_incremental rfl connectWillTopic_incremental
  exact readByte_guarded (.yieldOn rfl (readByte_guarded clientId))

private theorem connect_incremental : Incremental resume Idle connectProtocolName := by
  have flags : Guarded resume Idle connectFlags := readByte_guarded (.yieldOn rfl connectKeepalive_guarded)
  have version : Guarded resume Idle connectProtocolVersion := readByte_guarded (.yieldOn rfl flags)
  exact readInto_incremental readString_incremental rfl (.yieldOn rfl version)

private theorem publish_incremental : Incremental resume Idle (packetBody .publish) := by
  have content : Incremental resume Idle publishContent :=
    readAssign_incremental (fun _ => rfl)
      (.branch (readInto_incremental readData_incremental rfl (.exit _)) (.exit _))
  have messageId : Guarded resume Idle publishMessageId :=
    .branch (readByte_guarded (.yieldOn rfl (readByte_guarded content))) content.guarded
  have topicName : Incremental resume Idle publishTopicName :=
    readInto_incremental readString_incremental rfl (.yieldOn rfl messageId)
  exact .yieldOn rfl topicName.guarded

private theorem subscribe_incremental : Incremental resume Idle (packetBody .subscribe) := by
  have qos : Guarded resume Idle subscribeQos := readByte_guarded (.exit _)
  have topics : Incremental resume Idle subscribeTopics :=
    readAssign_incremental (fun _ => rfl)
      (readInto_incremental readString_incremental rfl (.yieldOn rfl qos))
  have low : Guarded resume Idle subscribeLow := readByte_guarded (.yieldOn rfl topics.guarded)
  exact .yieldOn rfl (readByte_guarded (.yieldOn rfl low))

private theorem suback_incremental : Incremental resume Idle (packetBody .suback) := by
  have status : Guarded resume Idle subackStatus := by
    refine .assign (fun _ h => h) (.check ?_ (.exit _))
    intro f b f' hf accepted
    split at accepted
    · obtain rfl := Except.ok.inj accepted
      exact hf
    · exact absurd accepted (by simp)
  have low : Guarded resume Idle subackLow := readByte_guarded (.yieldOn rfl status)
  exact .yieldOn rfl (readByte_guarded (.yieldOn rfl low))

private theorem reply_incremental {update : Message → (Reply → Reply) → Message} {high low : Cs}
    (resumeHigh : resume high = replyHigh update low) (resumeLow : resume low = replyLow update) :
    Incremental resume Idle (yieldOn high (replyHigh update low)) :=
  .yieldOn resumeHigh (readByte_guarded (.yieldOn resumeLow (readByte_guarded (.exit _))))

theorem packetBody_incremental (type : MqttType) : Incremental resume Idle (packetBody type) := by
  have refused : Incremental resume Idle unsupported := .assign (fun _ _ => rfl) (.exit _)
  cases type with
  | connect => exact connect_incremental
  | connack => exact .yieldOn rfl (readByte_guarded (.yieldOn rfl (readByte_guarded (.exit _))))
  | publish => exact publish_incremental
  | puback | pubrec | pubrel | pubcomp => exact reply_incremental rfl rfl
  | subscribe => exact subscribe_incremental
  | suback => exact suback_incremental
  | pingresp | disconnect => exact .exit _
  | none | unsubscribe | unsuback | pingreq | reserved => exact refused

private theorem afterRemainingLength_incremental : Incremental resume Idle afterRemainingLength :=
  readAssign_incremental (fun _ => rfl) (.select packetBody_incremental)

private theorem remainingLength_guarded : Guarded resume Idle remainingLength := by
  intro f hf a b ha hb
  induction a generalizing f with
  | nil => exact absurd rfl ha
  | cons digit a ih =>
    rw [List.cons_append,remainingLength_cons,remainingLength_cons]
    split
    · cases a with
      | nil =>
        cases b with
        | nil => exact absurd rfl hb
        | cons c b => rfl
      | cons c a => exact ih _ hf (by simp)
    · split
      · rfl
      · exact afterRemainingLength_incremental {f with regs := addDigit f.regs digit} hf a b hb

/-- Whatever the bytes are, a message read from `a` and then from `b` is the one read from `a ++ b`. -/
theorem start_incremental : Incremental resume Idle start :=
  readAssign_incremental (fun _ => rfl) (.yieldOn rfl (.next (fun _ _ h => h)
    (.yieldOn rfl remainingLength_guarded)))

end XivelyClient.Mqtt.ParserExecute

namespace XivelyClient.Mqtt
open Resumable

/-- The parser on one buffer after another while it wants to read; a returned message leaves the rest of
its buffer and the buffers behind it. -/
def parserRun (parser : Parser) (localState : XiState) (message : Message) : List (List UInt8) → Executed
  | [] => .returned .wantRead parser localState message []
  | chunk :: chunks =>
    match parserExecute parser localState message chunk with
    | .fault => .fault
    | .returned state parser localState message rest =>
      if state = .wantRead then parserRun parser localState message chunks
      else .returned state parser localState message (rest ++ chunks.flatten)

private theorem feedAll_done (answer : XiState) (f : ParserExecute.Frame) (rest : List UInt8)
    (chunks : List (List UInt8)) :
    feedAll ParserExecute.resume (.done answer f rest) chunks = .done answer f (rest ++ chunks.flatten) := by
  induction chunks generalizing rest with
  | nil => simp [feedAll]
  | cons chunk chunks ih => simpa [feedAll] using ih (rest ++ chunk)

private theorem feedAll_fault (chunks : List (List UInt8)) :
    feedAll ParserExecute.resume .fault chunks = .fault := by
  induction chunks with
  | nil => rfl
  | cons chunk chunks ih => exact ih

private theorem parserRun_more (c : ParserExecute.Cs) (f : ParserExecute.Frame) (chunks : List (List UInt8)) :
    parserRun {f.regs with cs := c,readCs := f.readCs} f.localState f.message chunks =
      .ofStep (feedAll ParserExecute.resume (.more c f) chunks) := by
  induction chunks generalizing c f with
  | nil => rfl
  | cons chunk chunks ih =>
    have first : parserExecute {f.regs with cs := c,readCs := f.readCs} f.localState f.message chunk =
        .ofStep (ParserExecute.resume c f chunk) := rfl
    rw [parserRun,first]
    cases step : ParserExecute.resume c f chunk with
    | more d g => simpa [feedAll,step,Executed.ofStep] using ih d g
    | fault => simpa [feedAll,step,Executed.ofStep] using (congrArg Executed.ofStep (feedAll_fault chunks)).symm
    | done answer g rest =>
      have ended := feedAll_done answer g rest chunks
      obtain ⟨rfl | rfl,_⟩ := ParserExecute.resume_returns c _ _ _ _ _ step <;>
        simpa [feedAll,step,Executed.ofStep] using (congrArg Executed.ofStep ended).symm

theorem parserRun_flatten (localState : XiState) (chunk : List UInt8) (chunks : List (List UInt8))
    (nonempty : ∀ c ∈ chunks, c ≠ []) :
    parserRun parserInit localState {} (chunk :: chunks) =
      parserExecute parserInit localState {} (chunk ++ chunks.flatten) := by
  have run := parserRun_more .start ⟨localState,.start,{},{}⟩ (chunk :: chunks)
  have inc := ParserExecute.start_incremental.feedAll ⟨localState,.start,{},{}⟩ rfl chunk chunks nonempty
  have whole : feedAll ParserExecute.resume (.more .start ⟨localState,.start,{},{}⟩) (chunk :: chunks) =
      ParserExecute.start ⟨localState,.start,{},{}⟩ (chunk ++ chunks.flatten) := inc
  rw [whole] at run
  exact run

end XivelyClient.Mqtt
