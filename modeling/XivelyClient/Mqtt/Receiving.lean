import XivelyClient.Mqtt.Chunking
import XivelyClient.Mqtt.CodecLayer

/-! The receiving side of the codec layer over a whole connection: what it has delivered
after some buffers depends on the bytes of the buffers only. -/
namespace XivelyClient.Mqtt
open Resumable

/-- Two cuts of the same bytes into pieces that are not empty are both empty or neither is. -/
private theorem cut_cases {cut₁ cut₂ : List (List UInt8)} (nonempty₁ : ∀ chunk ∈ cut₁, chunk ≠ [])
    (nonempty₂ : ∀ chunk ∈ cut₂, chunk ≠ []) (same : cut₁.flatten = cut₂.flatten) :
    (cut₁ = [] ∧ cut₂ = []) ∨
      ∃ first rest₁ second rest₂, cut₁ = first :: rest₁ ∧ cut₂ = second :: rest₂ := by
  cases cut₁ with
  | nil =>
    cases cut₂ with
    | nil => exact .inl ⟨rfl,rfl⟩
    | cons chunk cut₂ =>
      have empty : chunk = [] := (List.append_eq_nil_iff.mp same.symm).1
      exact absurd empty (nonempty₂ chunk (by simp))
  | cons first cut₁ =>
    cases cut₂ with
    | nil =>
      have empty : first = [] := (List.append_eq_nil_iff.mp same).1
      exact absurd empty (nonempty₁ first (by simp))
    | cons second cut₂ => exact .inr ⟨first,cut₁,second,cut₂,rfl,rfl⟩

/-- What has become of the stream: `parseError` has started to close the connection. -/
inductive PullStatus
  | needsMore | complete | parseError | crashed
  deriving DecidableEq, Repr

namespace CodecLayer

def pullStatus (layer : CodecLayer) : PullStatus :=
  if layer.crashed then .crashed
  else if layer.layerState.notOperational then .parseError
  else if layer.pullCs = .start then .complete
  else .needsMore

/-- The buffers of a connection, handed to `pull` one after another. -/
def receive (layer : CodecLayer) (chunks : List (List UInt8)) : CodecLayer :=
  chunks.foldl (fun layer chunk => layer.pull chunk .ok) layer

/-- Between two messages on an open connection, with memory to be had. -/
structure Waiting (layer : CodecLayer) : Prop where
  between : layer.pullCs = .start
  open_ : layer.layerState = .connected
  alive : layer.crashed = false
  memory : layer.faults = []

/-- Equal layers, or both dead after the same trace. -/
def Same (a b : CodecLayer) : Prop :=
  a = b ∨ (a.crashed = true ∧ b.crashed = true ∧ a.trace = b.trace)

theorem Same.refl (a : CodecLayer) : Same a a := .inl rfl

theorem Same.symm {a b : CodecLayer} (ab : Same a b) : Same b a := by
  rcases ab with rfl | ⟨deadA,deadB,trace⟩
  · exact .refl _
  · exact .inr ⟨deadB,deadA,trace.symm⟩

theorem Same.trans {a b c : CodecLayer} (ab : Same a b) (bc : Same b c) : Same a c := by
  rcases ab with rfl | ⟨deadA,deadB,traceAB⟩
  · exact bc
  · rcases bc with rfl | ⟨_,deadC,traceBC⟩
    · exact .inr ⟨deadA,deadB,traceAB⟩
    · exact .inr ⟨deadA,deadC,traceAB.trans traceBC⟩

theorem pull_crashed {layer : CodecLayer} (dead : layer.crashed = true) (src : List UInt8)
    (state : XiState) : layer.pull src state = layer := by
  rw [pull,if_pos (by simp [dead])]

theorem pull_closed {layer : CodecLayer} (closed : layer.layerState.notOperational = true)
    (src : List UInt8) (state : XiState) : layer.pull src state = layer := by
  rw [pull,if_pos (by simp [closed])]

theorem Same.pull {a b : CodecLayer} (same : Same a b) (src : List UInt8) (state : XiState) :
    Same (a.pull src state) (b.pull src state) := by
  rcases same with rfl | ⟨deadA,deadB,trace⟩
  · exact .refl _
  · rw [pull_crashed deadA,pull_crashed deadB]
    exact .inr ⟨deadA,deadB,trace⟩

theorem Same.receive {a b : CodecLayer} (same : Same a b) (chunks : List (List UInt8)) :
    Same (a.receive chunks) (b.receive chunks) := by
  induction chunks generalizing a b with
  | nil => exact same
  | cons chunk chunks ih => exact ih (same.pull chunk .ok)

/-- What `pull` makes of the parser's answer, in a layer that has already been given the message. -/
def answered (layer : CodecLayer) : Executed → CodecLayer
  | .fault => layer.crash
  | .returned answer parser parserState message rest =>
    let next := layer.parsed answer parser parserState message
    if answer = .wantRead then {next with pullCs := .reading}
    else if answer ≠ .ok then next.pullErrHandling .ok
    else if rest = [] then next.deliver message
    else (next.deliver message).pull rest .ok

theorem pull_answered {layer : CodecLayer} (alive : layer.crashed = false)
    (operational : layer.layerState.notOperational = false) (begun : (pullBegin layer).1 = true)
    (src : List UInt8) :
    layer.pull src .ok = (pullBegin layer).2.answered (parserExecute (pullBegin layer).2.parser
      (pullBegin layer).2.parserState ((pullBegin layer).2.msg.getD {}) src) := by
  rw [pull,if_neg (by simp [alive,operational]),if_neg (by simp),if_neg (by simp [begun])]
  split
  · rename_i faulted
    rw [faulted]
    rfl
  · rename_i answer parser parserState message rest returned
    rw [returned]
    simp only [answered,dite_eq_ite]

/-- The layer with its message allocated and its parser reset. -/
def begun (layer : CodecLayer) : CodecLayer := {layer with msg := some {},parser := parserInit}

def freshFrame (layer : CodecLayer) : ParserExecute.Frame := ⟨layer.parserState,.start,{},{}⟩

private theorem pullBegin_waiting {layer : CodecLayer} (waiting : Waiting layer) :
    pullBegin layer = (true,layer.begun) := by
  have attempted : layer.attempt = (true,layer) := by
    unfold attempt
    rw [waiting.memory]
  unfold pullBegin
  rw [waiting.between,attempted]
  rfl

private theorem open_operational {layer : CodecLayer} (open_ : layer.layerState = .connected) :
    layer.layerState.notOperational = false := by
  rw [open_]
  rfl

theorem Waiting.pull {layer : CodecLayer} (waiting : Waiting layer) (src : List UInt8) :
    layer.pull src .ok = layer.begun.answered (.ofStep (ParserExecute.start layer.freshFrame src)) := by
  have begin_ := pullBegin_waiting waiting
  rw [pull_answered waiting.alive (open_operational waiting.open_) (by rw [begin_]),begin_]
  rfl

/-- A layer that waits for the rest of a message takes an answer as it would have at its beginning. -/
private theorem answered_again (layer : CodecLayer) (c : ParserExecute.Cs) (f : ParserExecute.Frame)
    (executed : Executed) :
    Same ((layer.answered (.ofStep (.more c f))).answered executed) (layer.answered executed) := by
  cases executed with
  | fault => exact .inr ⟨rfl,rfl,rfl⟩
  | returned answer parser parserState message rest => exact .inl rfl

/-- After WANT_READ the next buffer is given to the block behind the label the parser stopped at. -/
theorem pull_reading (layer : CodecLayer) (alive : layer.crashed = false)
    (open_ : layer.layerState = .connected) (c : ParserExecute.Cs) (f : ParserExecute.Frame)
    (src : List UInt8) :
    Same ((layer.answered (.ofStep (.more c f))).pull src .ok)
      (layer.answered (.ofStep (ParserExecute.resume c f src))) := by
  obtain ⟨stopped,hstopped⟩ : ∃ stopped, layer.answered (.ofStep (.more c f)) = stopped := ⟨_,rfl⟩
  have alive' : stopped.crashed = false := by
    rw [← hstopped]
    exact alive
  have operational' : stopped.layerState.notOperational = false := by
    rw [← hstopped]
    exact open_operational open_
  have begin_ : pullBegin stopped = (true,stopped) := by
    rw [← hstopped]
    rfl
  have next : stopped.pull src .ok = stopped.answered (.ofStep (ParserExecute.resume c f src)) := by
    rw [pull_answered alive' operational' (by rw [begin_]),begin_,← hstopped]
    rfl
  rw [hstopped,next,← hstopped]
  exact answered_again layer c f _

theorem deliver_waiting {layer : CodecLayer} (waiting : Waiting layer) (answer : XiState) (parser : Parser)
    (parserState : XiState) (message : Message) :
    Waiting ((layer.begun.parsed answer parser parserState message).deliver message) :=
  ⟨rfl,waiting.open_,waiting.alive,waiting.memory⟩

/-- A parse error starts the close and drops what is left of the buffer. -/
private theorem answered_error (layer : CodecLayer) (open_ : layer.layerState = .connected)
    (f : ParserExecute.Frame) (rest rest' : List UInt8) :
    layer.answered (.ofStep (.done .mqttParserError f rest)) =
        layer.answered (.ofStep (.done .mqttParserError f rest')) ∧
      (layer.answered (.ofStep (.done .mqttParserError f rest))).layerState.notOperational = true := by
  refine ⟨rfl,?_⟩
  simp [answered,Executed.ofStep,pullErrHandling,clearTaskQueue,LayerState.getNextLayerState,parsed,open_,
    LayerState.notOperational]

/-- One buffer cut in two leaves the layer as the whole buffer does. The induction is on the first part:
behind each message of it the layer is between two messages again. -/
theorem pull_append {layer : CodecLayer} (waiting : Waiting layer) (a b : List UInt8) (hb : b ≠ []) :
    Same ((layer.pull a .ok).pull b .ok) (layer.pull (a ++ b) .ok) := by
  obtain ⟨n,hn⟩ : ∃ n, a.length = n := ⟨_,rfl⟩
  induction n using Nat.strong_induction_on generalizing layer a with
  | _ n ih =>
    have fed := ParserExecute.start_incremental layer.freshFrame rfl a b hb
    rw [waiting.pull a,waiting.pull (a ++ b),fed]
    cases first : ParserExecute.start layer.freshFrame a with
    | more c f => exact pull_reading layer.begun waiting.alive waiting.open_ c f b
    | fault =>
      rw [pull_crashed rfl]
      exact .refl _
    | done answer f rest =>
      obtain ⟨rfl | rfl,_⟩ := ParserExecute.resume_returns .start _ _ _ _ _ first
      · have shorter := ParserExecute.start_shorter _ _ _ _ _ first
        have next := deliver_waiting waiting .ok {f.regs with cs := .start,readCs := f.readCs} f.localState
          f.message
        by_cases left : rest = []
        · subst left
          have whole : layer.begun.answered (.ofStep (.done .ok f ([] ++ b))) =
              ((layer.begun.parsed .ok {f.regs with cs := .start,readCs := f.readCs} f.localState
                f.message).deliver f.message).pull b .ok := by
            simp [answered,Executed.ofStep,hb]
          rw [feed_done,whole]
          exact .refl _
        · have part : layer.begun.answered (.ofStep (.done .ok f rest)) =
              ((layer.begun.parsed .ok {f.regs with cs := .start,readCs := f.readCs} f.localState
                f.message).deliver f.message).pull rest .ok := by
            simp [answered,Executed.ofStep,left]
          have whole : layer.begun.answered (.ofStep (.done .ok f (rest ++ b))) =
              ((layer.begun.parsed .ok {f.regs with cs := .start,readCs := f.readCs} f.localState
                f.message).deliver f.message).pull (rest ++ b) .ok := by
            simp [answered,Executed.ofStep,left]
          rw [feed_done,part,whole]
          exact ih rest.length (by omega) next rest rfl
      · obtain ⟨same,closing⟩ := answered_error layer.begun waiting.open_ f rest (rest ++ b)
        rw [feed_done,pull_closed closing,same]
        exact .refl _

theorem receive_pull {layer : CodecLayer} (waiting : Waiting layer) (a : List UInt8)
    (chunks : List (List UInt8)) (nonempty : ∀ chunk ∈ chunks, chunk ≠ []) :
    Same ((layer.pull a .ok).receive chunks) (layer.pull (a ++ chunks.flatten) .ok) := by
  induction chunks generalizing a with
  | nil =>
    rw [List.flatten_nil,List.append_nil]
    exact .refl _
  | cons chunk chunks ih =>
    have first := pull_append waiting a chunk (nonempty chunk (by simp))
    have rest := ih (a ++ chunk) (fun c hc => nonempty c (by simp [hc]))
    rw [List.flatten_cons,← List.append_assoc]
    exact (first.receive chunks).trans rest

theorem Same.pullStatus {a b : CodecLayer} (same : Same a b) : a.pullStatus = b.pullStatus := by
  rcases same with rfl | ⟨deadA,deadB,_⟩
  · rfl
  · simp [CodecLayer.pullStatus,deadA,deadB]

theorem Same.trace {a b : CodecLayer} (same : Same a b) : a.trace = b.trace := by
  rcases same with rfl | ⟨_,_,trace⟩
  · rfl
  · exact trace

/-- Two cuts of the same bytes give the same messages, the same ending, and unless the process is dead the
same layer. -/
theorem receive_cut {layer : CodecLayer} (waiting : Waiting layer) (cut₁ cut₂ : List (List UInt8))
    (nonempty₁ : ∀ chunk ∈ cut₁, chunk ≠ []) (nonempty₂ : ∀ chunk ∈ cut₂, chunk ≠ [])
    (same : cut₁.flatten = cut₂.flatten) : Same (layer.receive cut₁) (layer.receive cut₂) := by
  rcases cut_cases nonempty₁ nonempty₂ same with ⟨rfl,rfl⟩ | ⟨first,rest₁,second,rest₂,rfl,rfl⟩
  · exact .refl _
  · have one := receive_pull waiting first rest₁ (fun c hc => nonempty₁ c (by simp [hc]))
    have two := receive_pull waiting second rest₂ (fun c hc => nonempty₂ c (by simp [hc]))
    rw [List.flatten_cons,List.flatten_cons] at same
    rw [same] at one
    exact one.trans two.symm

end CodecLayer

private theorem parserRun_cut (localState : XiState) (cut₁ cut₂ : List (List UInt8))
    (nonempty₁ : ∀ chunk ∈ cut₁, chunk ≠ []) (nonempty₂ : ∀ chunk ∈ cut₂, chunk ≠ [])
    (same : cut₁.flatten = cut₂.flatten) :
    parserRun parserInit localState {} cut₁ = parserRun parserInit localState {} cut₂ := by
  rcases cut_cases nonempty₁ nonempty₂ same with ⟨rfl,rfl⟩ | ⟨first,rest₁,second,rest₂,rfl,rfl⟩
  · rfl
  · rw [parserRun_flatten localState first rest₁ (fun c hc => nonempty₁ c (by simp [hc])),
      parserRun_flatten localState second rest₂ (fun c hc => nonempty₂ c (by simp [hc]))]
    exact congrArg (parserExecute parserInit localState {}) same

/-- Chunking invariance: however the bytes of a connection are cut, the layer delivers the same messages
with all their fields and ends in the same status, and a parser on its own answers the same. -/
theorem chunking_invariance {layer : CodecLayer} (waiting : layer.Waiting) (localState : XiState)
    (cut₁ cut₂ : List (List UInt8)) (nonempty₁ : ∀ chunk ∈ cut₁, chunk ≠ [])
    (nonempty₂ : ∀ chunk ∈ cut₂, chunk ≠ []) (same : cut₁.flatten = cut₂.flatten) :
    (layer.receive cut₁).trace = (layer.receive cut₂).trace ∧
      (layer.receive cut₁).pullStatus = (layer.receive cut₂).pullStatus ∧
      parserRun parserInit localState {} cut₁ = parserRun parserInit localState {} cut₂ := by
  have layers := CodecLayer.receive_cut waiting cut₁ cut₂ nonempty₁ nonempty₂ same
  exact ⟨layers.trace,layers.pullStatus,parserRun_cut localState cut₁ cut₂ nonempty₁ nonempty₂ same⟩

theorem chunking_invariance_puback :
    (({} : CodecLayer).receive [[0x40,0x02],[0x00,0x07]]).trace =
      (({} : CodecLayer).receive [[0x40],[0x02,0x00],[0x07]]).trace := by
  have waiting : ({} : CodecLayer).Waiting := ⟨rfl,rfl,rfl,rfl⟩
  exact (chunking_invariance waiting .ok [[0x40,0x02],[0x00,0x07]] [[0x40],[0x02,0x00],[0x07]]
    (by decide) (by decide) rfl).1

end XivelyClient.Mqtt
