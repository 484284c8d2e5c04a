import XivelyClient.Mqtt.Sending

/-! The send queue of the codec layer over whole runs. `transcript` says what is to become of a queue of
messages under the answers from below: the header goes down, the payload once the header is written, then
the message is freed and its completion goes up, and only then the next message has its turn. -/
namespace XivelyClient.Mqtt
open Runs

namespace SendQueue

/-- The id and the type that identify a message in its completion. -/
def tag (msg : SentMessage) : UInt16 × MqttType := (getMessageId msg.contents,msg.contents.common.type)

def completionState (written : Bool) : XiState := if written then .written else .failedWriting

def headerOf (msg : SentMessage) : List UInt8 :=
  match encodeHeader msg.contents with
  | .ok bytes => bytes
  | .error _ => []

def finished (msg : SentMessage) (written : Bool) : List CodecEffect :=
  [.freeMessage msg.addr,.pushNext (.writtenData (tag msg).1 (tag msg).2) (completionState written)]

/-- What happens to a queue under the answers that have come. The last message served may wait for one more. -/
def transcript : List SentMessage → List Bool → List CodecEffect
  | [],_ => []
  | msg :: queue,answers =>
    .pushPrev (headerOf msg) .ok ::
      match answers,payloadBuffer msg.contents with
      | [],_ => []
      | false :: answers,_ => finished msg false ++ transcript queue answers
      | true :: answers,none => finished msg true ++ transcript queue answers
      | true :: answers,some payload =>
        .pushPrev payload .ok ::
          match answers with
          | [] => []
          | written :: answers => finished msg written ++ transcript queue answers

/-- The layer with what its neighbours have done so far: the messages from above and the answers from below. -/
structure World where
  layer : CodecLayer
  pushed : List SentMessage := []
  answers : List Bool := []
  deriving DecidableEq, Repr

inductive Event
  | send (msg : SentMessage)
  | complete (written : Bool)
  deriving DecidableEq, Repr

def step (w : World) : Event → World
  | .send msg => ⟨w.layer.push (some msg) .ok,w.pushed ++ [msg],w.answers⟩
  | .complete written => ⟨w.layer.push none (completionState written),w.pushed,w.answers ++ [written]⟩

/-- The buffers that have gone down. -/
def handedDown (trace : List CodecEffect) : Nat :=
  trace.countP fun | .pushPrev _ _ => true | _ => false

/-- The completions that have gone up as tuples. -/
def reported (trace : List CodecEffect) : List (UInt16 × MqttType) :=
  trace.filterMap fun | .pushNext (.writtenData id type) _ => some (id,type) | _ => none

def freed (trace : List CodecEffect) : List Nat :=
  trace.filterMap fun | .freeMessage addr => some addr | _ => none

/-- Each message is a block of its own, and the layer below answers what it has got. -/
def enabled (w : World) : Event → Prop
  | .send msg => CodecLayer.WellFormed msg.contents ∧ msg.addr ∉ w.pushed.map SentMessage.addr
  | .complete _ => w.answers.length < handedDown w.layer.trace

instance (w : World) (event : Event) : Decidable (enabled w event) :=
  match event with
  | .send msg => inferInstanceAs (Decidable (encodeHeader msg.contents ≠ .error .nullPointer ∧ msg.addr ∉ w.pushed.map SentMessage.addr))
  | .complete _ => inferInstanceAs (Decidable (w.answers.length < handedDown w.layer.trace))

/-- A connected layer in which nothing is being sent. -/
def initial (faults : List Bool) : World := {layer := {faults := faults}}

@[simp] theorem handedDown_append (a b : List CodecEffect) : handedDown (a ++ b) = handedDown a + handedDown b :=
  List.countP_append

@[simp] theorem reported_append (a b : List CodecEffect) : reported (a ++ b) = reported a ++ reported b :=
  List.filterMap_append

@[simp] theorem freed_append (a b : List CodecEffect) : freed (a ++ b) = freed a ++ freed b :=
  List.filterMap_append

section Transcript

variable {msg : SentMessage} {queue done : List SentMessage} {own used now : List Bool}

/-- The answers that one message takes to its end. -/
inductive Answered (msg : SentMessage) : List Bool → Prop
  | refused : Answered msg [false]
  | header (single : payloadBuffer msg.contents = none) : Answered msg [true]
  | payload (payload : List UInt8) (double : payloadBuffer msg.contents = some payload) (written : Bool) :
    Answered msg [true,written]

inductive Complete : List SentMessage → List Bool → Prop
  | nil : Complete [] []
  | snoc (done : List SentMessage) (used : List Bool) (msg : SentMessage) (own : List Bool) :
    Complete done used → Answered msg own → Complete (done ++ [msg]) (used ++ own)

theorem transcript_answered (answered : Answered msg own) (queue : List SentMessage) (now : List Bool) :
    transcript (msg :: queue) (own ++ now) = transcript [msg] own ++ transcript queue now := by
  cases answered with
  | refused => simp [transcript]
  | header single => simp [transcript,single]
  | payload payload double written => simp [transcript,double]

theorem transcript_complete (complete : Complete done used) (queue : List SentMessage) (now : List Bool) :
    transcript (done ++ queue) (used ++ now) = transcript done used ++ transcript queue now := by
  induction complete generalizing queue now with
  | nil => rfl
  | snoc done used msg own before answered ih =>
    have alone := ih [msg] own
    rw [List.append_assoc,List.append_assoc,ih,alone,List.append_assoc]
    congr 1
    exact transcript_answered answered queue now

/-- A message that has been served has gone down with as many buffers as it took answers, and has been
reported and freed once. -/
theorem answered_counts (answered : Answered msg own) : handedDown (transcript [msg] own) = own.length ∧
    reported (transcript [msg] own) = [tag msg] ∧ freed (transcript [msg] own) = [msg.addr] ∧
    .failed ∉ transcript [msg] own := by
  cases answered with
  | refused => simp [transcript,finished,handedDown,reported,freed,tag]
  | header single => simp [transcript,finished,handedDown,reported,freed,tag,single]
  | payload payload double written => simp [transcript,finished,handedDown,reported,freed,tag,double]

theorem complete_counts (complete : Complete done used) : handedDown (transcript done used) = used.length ∧
    reported (transcript done used) = done.map tag ∧ freed (transcript done used) = done.map SentMessage.addr ∧
    .failed ∉ transcript done used := by
  induction complete with
  | nil => simp [transcript,handedDown,reported,freed]
  | snoc done used msg own before answered ih =>
    obtain ⟨down,up,free,clean⟩ := ih
    obtain ⟨down',up',free',clean'⟩ := answered_counts answered
    rw [transcript_complete before]
    simp only [handedDown_append,reported_append,freed_append,List.length_append,List.map_append,
      List.mem_append,down,up,free,down',up',free']
    exact ⟨trivial,rfl,rfl,fun member => member.elim clean clean'⟩

end Transcript

section Serving

variable {layer : CodecLayer} {msg : SentMessage} {queue : List SentMessage} {now : List Bool} {n k : Nat}

/-- Where the coroutine stands: the messages that are not served yet and the answers for the first of them. -/
inductive Phase (layer : CodecLayer) : List SentMessage → List Bool → Prop
  | idle (cs : layer.pushCs = .start) (tasks : layer.taskQueue = []) : Phase layer [] []
  | header (cs : layer.pushCs = .header) (msg : SentMessage) (queue : List SentMessage)
    (tasks : layer.taskQueue = (msg :: queue).map CodecLayer.makeTask)
    (tagged : (layer.msgId,layer.msgType) = tag msg) : Phase layer (msg :: queue) []
  | payload (cs : layer.pushCs = .payload) (msg : SentMessage) (queue : List SentMessage)
    (tasks : layer.taskQueue = (msg :: queue).map CodecLayer.makeTask)
    (tagged : (layer.msgId,layer.msgType) = tag msg) (payload : List UInt8)
    (double : payloadBuffer msg.contents = some payload) : Phase layer (msg :: queue) [true]

theorem Phase.tasks (phase : Phase layer queue now) : layer.taskQueue = queue.map CodecLayer.makeTask := by
  cases phase with
  | idle cs tasks => exact tasks
  | header cs msg queue tasks tagged => exact tasks
  | payload cs msg queue tasks tagged payload double => exact tasks

theorem Phase.counts (phase : Phase layer queue now) :
    handedDown (transcript queue now) = now.length + (if layer.pushCs = .start then 0 else 1) ∧
      reported (transcript queue now) = [] ∧ freed (transcript queue now) = [] ∧
        .failed ∉ transcript queue now := by
  cases phase with
  | idle cs tasks => simp [transcript,handedDown,reported,freed,cs]
  | header cs msg queue tasks tagged => simp [transcript,handedDown,reported,freed,cs]
  | payload cs msg queue tasks tagged payload double =>
    simp [transcript,handedDown,reported,freed,cs,double]

/-- The layer has gone on to serve `queue`, with `more` in its trace. -/
structure Continues (layer after : CodecLayer) (queue : List SentMessage) (now : List Bool)
    (more : List CodecEffect) : Prop where
  running : after.crashed = layer.crashed
  operational : after.layerState = layer.layerState
  phase : Phase after queue now
  trace : after.trace = layer.trace ++ more

/-- Something has failed and, unless more than that has failed, it shows: a completion that is no tuple, a
coroutine that waits for more than the `n` answers there are, or one of the `k` messages forgotten. -/
def Fails (n k : Nat) (after : CodecLayer) : Prop :=
  0 < after.failures ∧ (after.failures ≤ 1 →
    (∃ completion, .pushNext completion .failedWriting ∈ after.trace ∧ ∀ id type, completion ≠ .writtenData id type) ∨
    (after.pushCs ≠ .start ∧ handedDown after.trace ≤ n) ∨
    (reported after.trace).length + after.taskQueue.length < k)

theorem Fails.of_error (data : Option SentMessage) (failed : 0 < layer.failures) :
    Fails n k (layer.pushErrHandling data) := by
  have more := (CodecLayer.pushErrHandling_extends layer data).failures
  refine ⟨by omega,fun single => .inl ?_⟩
  rcases CodecLayer.pushErrHandling_breaks data failed with double | broken
  · omega
  · exact broken

theorem Fails.of_lost_buffer (waiting : layer.pushCs ≠ .start) (down : handedDown layer.trace ≤ n) :
    Fails n k (layer.emit .failed) := by
  refine ⟨by rw [CodecLayer.emit_failures,if_pos rfl]; omega,fun single => .inr (.inl ⟨waiting,?_⟩)⟩
  rw [CodecLayer.emit,handedDown_append]
  exact down

theorem headerOf_eq {bytes : List UInt8} (encoded : encodeHeader msg.contents = .ok bytes) :
    headerOf msg = bytes := by
  rw [headerOf,encoded]

theorem encode_outcome (sound : CodecLayer.WellFormed msg.contents)
    (tasks : layer.taskQueue = (msg :: queue).map CodecLayer.makeTask) (down : handedDown layer.trace ≤ n) :
    Continues layer (layer.pushEncode (some msg)) (msg :: queue) [] (transcript (msg :: queue) []) ∨
      Fails n k (layer.pushEncode (some msg)) := by
  rcases layer.pushEncode_cases msg sound with ⟨faults,bytes,encoded,eq⟩ | ⟨faults,eq⟩ | ⟨failed,eq,more⟩
  · left
    rw [eq]
    refine ⟨rfl,rfl,.header rfl msg queue tasks rfl,?_⟩
    rw [transcript,headerOf_eq encoded]
    rfl
  · right
    rw [eq]
    exact Fails.of_lost_buffer (by simp) down
  · right
    rw [eq]
    exact Fails.of_error _ (by omega)

theorem next_outcome (layer : CodecLayer) (msg : SentMessage)
    (sound : ∀ msg ∈ queue, CodecLayer.WellFormed msg.contents)
    (tasks : layer.taskQueue = {CodecLayer.makeTask msg with msg := none} :: queue.map CodecLayer.makeTask)
    (down : handedDown layer.trace ≤ n) :
    Continues layer layer.pushNextTask queue [] (transcript queue []) ∨ Fails n k layer.pushNextTask := by
  rw [CodecLayer.pushNextTask,tasks]
  cases queue with
  | nil => exact .inl ⟨rfl,rfl,.idle rfl rfl,(List.append_nil _).symm⟩
  | cons next queue =>
    let ready := {layer with taskQueue := (next :: queue).map CodecLayer.makeTask,pushCs := PushCs.start}
    have encoded : Continues ready _ _ _ _ ∨ Fails n k _ := encode_outcome (sound next List.mem_cons_self) rfl down
    exact encoded.imp_left fun ⟨running,operational,phase,trace⟩ => ⟨running,operational,phase,trace⟩

theorem finalise_outcome (sound : ∀ msg ∈ queue, CodecLayer.WellFormed msg.contents)
    (tasks : layer.taskQueue = (msg :: queue).map CodecLayer.makeTask)
    (tagged : (layer.msgId,layer.msgType) = tag msg) (down : handedDown layer.trace ≤ n)
    (up : (reported layer.trace).length + queue.length < k) (written : Bool) :
    Continues layer (layer.pushFinalise (completionState written)) queue []
      (finished msg written ++ transcript queue []) ∨
    Fails n k (layer.pushFinalise (completionState written)) := by
  obtain ⟨released,hreleased⟩ : ∃ released, {layer.emit (.freeMessage msg.addr) with
      taskQueue := {CodecLayer.makeTask msg with msg := none} :: queue.map CodecLayer.makeTask} = released :=
    ⟨_,rfl⟩
  have finalised : layer.pushFinalise (completionState written) = released.allocate
      (fun layer => (layer.post (.pushNext (.writtenData layer.msgId layer.msgType)
        (completionState written))).pushNextTask) (·.pushErrHandling none) := by
    rw [CodecLayer.pushFinalise,tasks,← hreleased]
    rfl
  rw [finalised]
  rcases released.allocate_cases _ (·.pushErrHandling none) with ⟨faults,eq⟩ | ⟨faults,eq⟩
  · rw [eq]
    have tuple : CodecEffect.pushNext (.writtenData released.msgId released.msgType) (completionState written) =
        .pushNext (.writtenData (tag msg).1 (tag msg).2) (completionState written) := by
      rw [← hreleased,← tagged]
      rfl
    rcases CodecLayer.post_cases {released with faults := faults} (.pushNext (.writtenData released.msgId
      released.msgType) (completionState written)) with ⟨faults,posted⟩ | ⟨faults,posted⟩
    · dsimp only
      rw [posted,tuple]
      refine (next_outcome _ msg sound (by rw [← hreleased]; rfl) ?_).imp_left fun goes => ?_
      · rw [← hreleased]
        simpa [CodecLayer.emit,handedDown] using down
      · refine ⟨goes.running.trans (by rw [← hreleased]; rfl),goes.operational.trans (by rw [← hreleased]; rfl),
          goes.phase,goes.trace.trans ?_⟩
        rw [← hreleased]
        simp [CodecLayer.emit,finished]
    · -- the tuple is lost, which shows unless a second call is lost
      dsimp only
      rw [posted]
      obtain ⟨lost,hlost⟩ : ∃ lost, CodecLayer.emit {released with faults := faults} .failed = lost := ⟨_,rfl⟩
      rw [hlost]
      have failed : 0 < lost.failures := by
        rw [← hlost,CodecLayer.emit_failures,if_pos rfl]
        omega
      have more := (CodecLayer.pushNextTask_extends lost).failures
      have left : lost.taskQueue = {CodecLayer.makeTask msg with msg := none} :: queue.map CodecLayer.makeTask := by
        rw [← hlost,← hreleased]
        rfl
      have quiet : handedDown lost.trace ≤ n := by
        rw [← hlost,← hreleased]
        simpa [CodecLayer.emit,handedDown] using down
      rcases next_outcome lost msg sound left quiet with goes | fails
      · refine .inr ⟨by omega,fun _ => .inr (.inr ?_)⟩
        have silent := goes.phase.counts.2.1
        rw [goes.trace,goes.phase.tasks,reported_append,silent,← hlost,← hreleased]
        simpa [CodecLayer.emit,reported] using up
      · exact .inr fails
  · right
    rw [eq]
    refine Fails.of_error none ?_
    rw [CodecLayer.emit_failures,if_pos rfl]
    omega

theorem content_present {message : Message} (sound : CodecLayer.WellFormed message)
    (type : message.common.type = .publish) : ∃ content, message.publish.content = some content := by
  cases present : message.publish.content with
  | some content => exact ⟨content,rfl⟩
  | none =>
    refine absurd ?_ sound
    rw [encodeHeader,serialiserSize,Serialiser.bodySize,type,present]
    cases message.publish.topicName <;> rfl

theorem header_outcome (sound : ∀ msg' ∈ msg :: queue, CodecLayer.WellFormed msg'.contents)
    (tasks : layer.taskQueue = (msg :: queue).map CodecLayer.makeTask)
    (tagged : (layer.msgId,layer.msgType) = tag msg) (down : handedDown layer.trace ≤ n) (written : Bool) :
    (payloadBuffer msg.contents = none ∨ written = false) ∧
      (layer.pushHeaderWritten (completionState written) = layer.pushFinalise (completionState written)) ∨
    (∃ payload, payloadBuffer msg.contents = some payload ∧ written = true ∧
      (Continues layer (layer.pushHeaderWritten (completionState written)) (msg :: queue) [true]
        [.pushPrev payload .ok] ∨ Fails n k (layer.pushHeaderWritten (completionState written)))) := by
  have head : layer.taskQueue.head?.bind CodecTask.msg = some msg := by
    rw [tasks]
    rfl
  rw [CodecLayer.pushHeaderWritten,head]
  cases written with
  | false => exact .inl ⟨.inr rfl,rfl⟩
  | true =>
    by_cases type : msg.contents.common.type = .publish
    · obtain ⟨content,present⟩ := content_present (sound msg List.mem_cons_self) type
      have buffer : payloadBuffer msg.contents = if 0 < content.length then some content.data else none := by
        rw [payloadBuffer,if_pos type,present]
        rfl
      by_cases some : 0 < content.length
      · refine .inr ⟨content.data,by rw [buffer,if_pos some],rfl,?_⟩
        simp only [completionState,if_true,ne_eq,not_true_eq_false,if_false,type,present,some]
        rcases layer.allocate_cases (fun layer => {layer with pushCs := .payload}.post (.pushPrev content.data .ok))
          (·.pushErrHandling none) with ⟨faults,eq⟩ | ⟨faults,eq⟩
        · rw [eq]
          rcases CodecLayer.post_cases {layer with faults := faults,pushCs := .payload} (.pushPrev content.data .ok)
            with ⟨faults,posted⟩ | ⟨faults,posted⟩
          · left
            rw [posted]
            exact ⟨rfl,rfl,.payload rfl msg queue tasks tagged content.data (by rw [buffer,if_pos some]),rfl⟩
          · right
            rw [posted]
            exact Fails.of_lost_buffer (by simp) down
        · right
          rw [eq]
          refine Fails.of_error none ?_
          rw [CodecLayer.emit_failures,if_pos rfl]
          omega
      · refine .inl ⟨.inl (by rw [buffer,if_neg some]),?_⟩
        simp only [completionState,if_true,ne_eq,not_true_eq_false,if_false,type,present,some]
    · refine .inl ⟨.inl (by rw [payloadBuffer,if_neg type]),?_⟩
      simp only [completionState,if_true,ne_eq,not_true_eq_false,if_false,type]

end Serving

/-- The layer is serving its queue and has done what `transcript` says. -/
structure Serving (w : World) : Prop where
  running : w.layer.crashed = false
  operational : w.layer.layerState.notOperational = false
  sound : ∀ msg ∈ w.pushed, CodecLayer.WellFormed msg.contents
  distinct : (w.pushed.map SentMessage.addr).Nodup
  served : ∃ done used queue now, w.pushed = done ++ queue ∧ w.answers = used ++ now ∧ Complete done used ∧
    Phase w.layer queue now ∧ w.layer.trace = transcript done used ++ transcript queue now

/-- Every completion that has gone up is a tuple, every message has had its one completion or is still
queued, no message is freed twice, and the coroutine waits exactly if an answer is to come. -/
structure Orderly (w : World) : Prop where
  tuples : ∀ completion state, .pushNext completion state ∈ w.layer.trace →
    ∃ id type, completion = .writtenData id type
  once : (w.pushed.map tag).Perm (reported w.layer.trace ++ w.layer.taskQueue.map fun task => (task.msgId,task.msgType))
  freed : (freed w.layer.trace).Nodup
  waits : handedDown w.layer.trace = w.answers.length + if w.layer.pushCs = .start then 0 else 1

section Runs

variable {w : World}

theorem Fails.disorderly (fails : Fails w.answers.length w.pushed.length w.layer) (single : w.layer.failures ≤ 1) :
    ¬ Orderly w := by
  intro orderly
  rcases fails.2 single with ⟨completion,member,noTuple⟩ | ⟨waiting,down⟩ | forgotten
  · obtain ⟨id,type,eq⟩ := orderly.tuples _ _ member
    exact noTuple id type eq
  · have waits := orderly.waits
    rw [if_neg waiting] at waits
    omega
  · have counted := orderly.once.length_eq
    simp only [List.length_append,List.length_map] at counted
    omega

theorem transcript_tuples (queue : List SentMessage) (answers : List Bool) (completion : Completion)
    (state : XiState) (member : .pushNext completion state ∈ transcript queue answers) :
    ∃ id type, completion = .writtenData id type := by
  induction queue generalizing answers with
  | nil => simp [transcript] at member
  | cons msg queue ih =>
    have first (written : Bool) (answers : List Bool)
        (member : .pushNext completion state ∈ finished msg written ++ transcript queue answers) :
        ∃ id type, completion = .writtenData id type := by
      rcases List.mem_append.mp member with own | later
      · simp only [finished,List.mem_cons,reduceCtorEq,CodecEffect.pushNext.injEq,List.not_mem_nil,or_false,
          false_or] at own
        exact ⟨_,_,own.1⟩
      · exact ih _ later
    rw [transcript.eq_def] at member
    have member := List.mem_cons.mp member
    have member := member.resolve_left (by simp)
    split at member
    · simp at member
    · exact first _ _ member
    · exact first _ _ member
    · have member := (List.mem_cons.mp member).resolve_left (by simp)
      split at member
      · simp at member
      · exact first _ _ member

theorem Serving.orderly (serving : Serving w) : Orderly w ∧ w.layer.failures = 0 := by
  obtain ⟨done,used,queue,now,pushed,answers,complete,phase,trace⟩ := serving.served
  obtain ⟨down,up,free,clean⟩ := complete_counts complete
  obtain ⟨down',up',free',clean'⟩ := phase.counts
  have distinct := serving.distinct
  refine ⟨⟨?_,?_,?_,?_⟩,?_⟩
  · intro completion state member
    rw [trace] at member
    exact (List.mem_append.mp member).elim (transcript_tuples _ _ _ _) (transcript_tuples _ _ _ _)
  · rw [trace,reported_append,up,up',phase.tasks,pushed]
    simp only [List.map_append,List.append_nil,List.map_map]
    rfl
  · rw [trace,freed_append,free,free',List.append_nil]
    rw [pushed,List.map_append] at distinct
    exact (List.nodup_append.mp distinct).1
  · rw [trace,handedDown_append,down,down',answers,List.length_append]
    omega
  · rw [CodecLayer.failures,trace,List.count_append,List.count_eq_zero.mpr clean,List.count_eq_zero.mpr clean']

theorem step_grows (w : World) (event : Event) : w.layer.failures ≤ (step w event).layer.failures := by
  cases event with
  | send msg => exact (CodecLayer.push_extends _ _ _).failures
  | complete written => exact (CodecLayer.push_extends _ _ _).failures

theorem push_send (layer : CodecLayer) (msg : SentMessage) (running : layer.crashed = false)
    (operational : layer.layerState.notOperational = false) : layer.push (some msg) .ok =
      layer.allocate (fun layer =>
        let layer := {layer with taskQueue := layer.taskQueue ++ [CodecLayer.makeTask msg]}
        if layer.pushCs = .start then layer.pushCoroutine (some msg) .ok else layer)
        (·.pushErrHandling (some msg)) := by
  rw [CodecLayer.push,if_neg (by simp [running]),if_neg (by simp [operational])]

theorem push_complete (layer : CodecLayer) (written : Bool) (running : layer.crashed = false)
    (operational : layer.layerState.notOperational = false) :
    layer.push none (completionState written) = layer.pushCoroutine none (completionState written) := by
  unfold CodecLayer.push
  rw [if_neg (by simp [running]),if_neg (by simp [operational])]

/-- The messages of a queue with one more behind them, while the first is being sent. -/
theorem Phase.push {layer : CodecLayer} {queue : List SentMessage} {now : List Bool} (phase : Phase layer queue now)
    (busy : layer.pushCs ≠ .start) (faults : List Bool) (msg : SentMessage) :
    Phase {layer with faults := faults,taskQueue := layer.taskQueue ++ [CodecLayer.makeTask msg]} (queue ++ [msg]) now ∧
      transcript (queue ++ [msg]) now = transcript queue now := by
  cases phase with
  | idle cs tasks => exact absurd cs busy
  | header cs first queue tasks tagged =>
    refine ⟨.header ?_ first (queue ++ [msg]) ?_ ?_,by simp [transcript]⟩
    · exact cs
    · simp [tasks]
    · exact tagged
  | payload cs first queue tasks tagged payload double =>
    refine ⟨.payload ?_ first (queue ++ [msg]) ?_ ?_ payload double,by simp [transcript,double]⟩
    · exact cs
    · simp [tasks]
    · exact tagged

theorem Serving.send {msg : SentMessage} (serving : Serving w) (sound : CodecLayer.WellFormed msg.contents)
    (fresh : msg.addr ∉ w.pushed.map SentMessage.addr) :
    Serving (step w (.send msg)) ∨ Fails w.answers.length (w.pushed.length + 1) (step w (.send msg)).layer := by
  obtain ⟨done,used,queue,now,pushed,answers,complete,phase,trace⟩ := serving.served
  have sounds : ∀ other ∈ w.pushed ++ [msg], CodecLayer.WellFormed other.contents := by
    intro other member
    rcases List.mem_append.mp member with older | new
    · exact serving.sound other older
    · rw [List.mem_singleton.mp new]
      exact sound
  have distinct : ((w.pushed ++ [msg]).map SentMessage.addr).Nodup := by
    rw [List.map_append,List.nodup_append]
    refine ⟨serving.distinct,by simp,?_⟩
    rintro addr older _ new rfl
    exact fresh (List.mem_singleton.mp new ▸ older)
  simp only [step,push_send w.layer msg serving.running serving.operational]
  rcases w.layer.allocate_cases _ (·.pushErrHandling (some msg)) with ⟨faults,eq⟩ | ⟨faults,eq⟩
  · rw [eq]
    by_cases busy : w.layer.pushCs = .start
    · let ready := {w.layer with faults := faults,taskQueue := w.layer.taskQueue ++ [CodecLayer.makeTask msg]}
      have started : ready.pushCoroutine (some msg) .ok = ready.pushEncode (some msg) := by
        rw [CodecLayer.pushCoroutine,show ready.pushCs = .start from busy]
      rw [if_pos busy]
      change Serving ⟨ready.pushCoroutine (some msg) .ok,_,_⟩ ∨ Fails _ _ (ready.pushCoroutine (some msg) .ok)
      rw [started]
      cases phase with
      | header cs _ _ tasks => rw [cs] at busy; contradiction
      | payload cs _ _ tasks => rw [cs] at busy; contradiction
      | idle cs tasks =>
        have quiet : handedDown ready.trace ≤ w.answers.length := by
          rw [show ready.trace = w.layer.trace from rfl,trace,handedDown_append,(complete_counts complete).1,answers,List.append_nil]
          exact le_rfl
        have tasked : ready.taskQueue = [msg].map CodecLayer.makeTask := by
          change w.layer.taskQueue ++ _ = _
          rw [tasks]
          rfl
        refine (encode_outcome sound tasked quiet).imp_left fun goes => ?_
        refine ⟨goes.running.trans serving.running,?_,sounds,distinct,done,used,[msg],[],by rw [pushed,List.append_nil],answers,
          complete,goes.phase,?_⟩
        · rw [goes.operational]
          exact serving.operational
        · rw [goes.trace,trace]
          simp [transcript]
    · rw [if_neg busy]
      obtain ⟨phase,silent⟩ := phase.push busy faults msg
      refine .inl ⟨serving.running,serving.operational,sounds,distinct,done,used,queue ++ [msg],now,?_,answers,
        complete,phase,?_⟩
      · rw [pushed,List.append_assoc]
      · rw [silent]
        exact trace
  · right
    rw [eq]
    refine Fails.of_error (some msg) ?_
    rw [CodecLayer.emit_failures,if_pos rfl]
    omega

/-- The message at the head of the queue gets its last answer. -/
theorem Serving.finish {msg : SentMessage} {done queue : List SentMessage} {used now : List Bool} {after : CodecLayer}
    (serving : Serving w) (pushed : w.pushed = done ++ msg :: queue) (answers : w.answers = used ++ now)
    (complete : Complete done used) (written : Bool) (answered : Answered msg (now ++ [written]))
    (trace : w.layer.trace ++ finished msg written = transcript done used ++ transcript [msg] (now ++ [written]))
    (goes : Continues w.layer after queue [] (finished msg written ++ transcript queue [])) :
    Serving ⟨after,w.pushed,w.answers ++ [written]⟩ := by
  refine ⟨goes.running.trans serving.running,?_,serving.sound,serving.distinct,done ++ [msg],
    used ++ (now ++ [written]),queue,[],?_,?_,.snoc done used msg _ complete answered,goes.phase,?_⟩
  · rw [goes.operational]
    exact serving.operational
  · rw [pushed,List.append_assoc]
    rfl
  · rw [answers,List.append_assoc,List.append_nil]
  · rw [goes.trace,← List.append_assoc,trace,transcript_complete complete]

theorem Serving.complete (serving : Serving w) (written : Bool)
    (pending : w.answers.length < handedDown w.layer.trace) : Serving (step w (.complete written)) ∨
      Fails (w.answers.length + 1) w.pushed.length (step w (.complete written)).layer := by
  obtain ⟨done,used,queue,now,pushed,answers,complete,phase,trace⟩ := serving.served
  obtain ⟨down,up,_,_⟩ := complete_counts complete
  obtain ⟨down',up',_,_⟩ := phase.counts
  have handed : handedDown w.layer.trace ≤ w.answers.length + 1 := by
    rw [trace,handedDown_append,down,down',answers,List.length_append]
    split <;> omega
  have told : reported w.layer.trace = done.map tag := by
    rw [trace,reported_append,up,up',List.append_nil]
  simp only [step,push_complete w.layer written serving.running serving.operational]
  cases phase with
  | idle cs tasks =>
    rw [trace,handedDown_append,down,down',if_pos cs,answers,List.length_append] at pending
    exact absurd pending (lt_irrefl _)
  | header cs msg queue tasks tagged =>
    rw [CodecLayer.pushCoroutine,cs]
    have sound : ∀ other ∈ msg :: queue, CodecLayer.WellFormed other.contents := fun other member =>
      serving.sound other (pushed ▸ List.mem_append_right done member)
    have short : (reported w.layer.trace).length + queue.length < w.pushed.length := by
      rw [told,pushed]
      simp
    have sent : transcript (msg :: queue) [] = [.pushPrev (headerOf msg) .ok] := by simp [transcript]
    rcases header_outcome sound tasks tagged handed written with ⟨last,eq⟩ | ⟨payload,double,rfl,goes⟩
    · dsimp only
      rw [eq]
      refine (finalise_outcome (fun other member => sound other (List.mem_cons_of_mem _ member)) tasks tagged
        handed short written).imp_left fun goes => ?_
      have answered : Answered msg [written] := by
        cases written with
        | false => exact .refused
        | true => exact .header (last.resolve_right (by simp))
      refine serving.finish pushed answers complete written answered ?_ goes
      rw [trace,sent,List.append_assoc]
      cases written with
      | false => simp [transcript]
      | true => simp [transcript,last.resolve_right (by simp)]
    · dsimp only
      refine goes.imp_left fun goes => ?_
      refine ⟨goes.running.trans serving.running,?_,serving.sound,serving.distinct,done,used,msg :: queue,[true],
        pushed,?_,complete,goes.phase,?_⟩
      · rw [goes.operational]
        exact serving.operational
      · rw [answers,List.append_nil]
      · rw [goes.trace,trace,sent,List.append_assoc]
        simp [transcript,double]
  | payload cs msg queue tasks tagged payload double =>
    rw [CodecLayer.pushCoroutine,cs]
    have short : (reported w.layer.trace).length + queue.length < w.pushed.length := by
      rw [told,pushed]
      simp
    refine (finalise_outcome (fun other member => serving.sound other
      (pushed ▸ List.mem_append_right done (List.mem_cons_of_mem _ member))) tasks tagged handed short
      written).imp_left fun goes => ?_
    refine serving.finish pushed answers complete written (.payload payload double written) ?_ goes
    rw [trace,List.append_assoc]
    simp [transcript,double]

theorem serving_step (w : World) (event : Event) (serving : Serving w) (may : enabled w event) :
    Serving (step w event) ∨
      Fails (step w event).answers.length (step w event).pushed.length (step w event).layer := by
  cases event with
  | send msg => simpa [step] using serving.send may.1 may.2
  | complete written => simpa [step] using serving.complete written may

theorem serving_initial (faults : List Bool) : Serving (initial faults) := by
  refine ⟨rfl,rfl,by simp [initial],by simp [initial],[],[],[],[],rfl,rfl,.nil,.idle rfl rfl,rfl⟩

theorem Serving.trace_eq (serving : Serving w) : w.layer.trace = transcript w.pushed w.answers ∧
    reported w.layer.trace <+: w.pushed.map tag ∧
      (w.answers.length = handedDown w.layer.trace → reported w.layer.trace = w.pushed.map tag) := by
  obtain ⟨done,used,queue,now,pushed,answers,complete,phase,trace⟩ := serving.served
  obtain ⟨down,up,_,_⟩ := complete_counts complete
  obtain ⟨down',up',_,_⟩ := phase.counts
  have told : reported w.layer.trace = done.map tag := by
    rw [trace,reported_append,up,up',List.append_nil]
  refine ⟨by rw [pushed,answers,transcript_complete complete,trace],?_,fun quiet => ?_⟩
  · rw [told,pushed,List.map_append]
    exact List.prefix_append _ _
  · rw [trace,handedDown_append,down,down',answers,List.length_append] at quiet
    cases phase with
    | idle cs tasks => rw [told,pushed,List.append_nil]
    | header cs msg queue tasks tagged =>
      rw [if_neg (by simp [cs])] at quiet
      omega
    | payload cs msg queue tasks tagged payload double =>
      rw [if_neg (by simp [cs])] at quiet
      omega

def pingreq : SentMessage := ⟨0,{common := {commonValue := 0xC0}}⟩

def publishOf (id : UInt16) (payload : DataDesc) : Message := {
  common := {commonValue := Common.ofBits 0 1 0 .publish}
  publish := ⟨some ⟨[116],1,.unmanaged,by decide⟩,id,some payload⟩}

/-- While nothing fails the layer does with its queue what `transcript` says, and once no answer is to come
every message has its completion. -/
theorem served_in_order (faults : List Bool) (events : List Event)
    (admissible : Admissible step enabled (initial faults) events)
    (clean : .failed ∉ (final step (initial faults) events).layer.trace) :
    let w := final step (initial faults) events
    w.layer.trace = transcript w.pushed w.answers ∧ reported w.layer.trace <+: w.pushed.map tag ∧
      (w.answers.length = handedDown w.layer.trace → reported w.layer.trace = w.pushed.map tag) := by
  have serving : Always step Serving (initial faults) events := by
    refine always_of_no_failure step_grows ?_ (serving_initial faults) admissible (List.count_eq_zero.mpr clean)
    intro w event serving may
    exact (serving_step w event serving may).imp_right And.left
  exact serving.last.trace_eq

/-- Two PUBLISH and a PINGREQ, pushed while the parts of the first are below. The second message is refused, and of the third the
payload. -/
def interleaved : List Event := [.send ⟨0,publishOf 1 ⟨[1,2],2,.managed,by decide⟩⟩,.send ⟨1,pingreq.contents⟩,.complete true,
  .send ⟨2,publishOf 2 ⟨[3],1,.managed,by decide⟩⟩,.complete true,.complete false,.complete true,.complete false]

theorem served_in_order_interleaved :
    let w := final step (initial []) interleaved
    w.layer.trace = transcript w.pushed w.answers ∧ reported w.layer.trace <+: w.pushed.map tag ∧
      (w.answers.length = handedDown w.layer.trace → reported w.layer.trace = w.pushed.map tag) :=
  served_in_order [] interleaved (by decide +kernel) (by decide +kernel)

/-- A single failure of an allocation or of the serialiser anywhere in a run breaks the queue, and nothing
else does. -/
theorem orderly_iff_no_failure (faults : List Bool) (events : List Event)
    (admissible : Admissible step enabled (initial faults) events)
    (single : (final step (initial faults) events).layer.failures ≤ 1) :
    Always step Orderly (initial faults) events ↔ (final step (initial faults) events).layer.failures = 0 := by
  refine always_iff_no_failure step_grows
    (fun w serving => serving.orderly) ?_ (serving_initial faults) admissible single
  intro w event serving may
  exact (serving_step w event serving may).imp_right fun fails => ⟨fails.1,fun single => fails.disorderly single⟩

/-- No memory for the task of the only message: the message itself goes up in place of a tuple. -/
theorem makeTask_failure_breaks : (final step (initial [true]) [.send pingreq]).layer.failures = 1 ∧
    ¬ Always step Orderly (initial [true]) [.send pingreq] := by
  refine ⟨rfl,fun always => ?_⟩
  obtain ⟨id,type,eq⟩ := always.last.tuples (.message 0) .failedWriting (by decide)
  contradiction

theorem pingreq_admissible : Admissible step enabled (initial [true]) [.send pingreq] := by decide +kernel

theorem orderly_iff_no_failure_pingreq : Always step Orderly (initial [true]) [.send pingreq] ↔
    (final step (initial [true]) [.send pingreq]).layer.failures = 0 :=
  orderly_iff_no_failure [true] [.send pingreq] pingreq_admissible (by decide)

end Runs

end SendQueue

end XivelyClient.Mqtt
