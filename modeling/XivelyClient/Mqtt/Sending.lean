import XivelyClient.Lib.Runs
import XivelyClient.Mqtt.CodecLayer

/-! The sending side of the codec layer between the layer above, which hands it messages, and the layer
below, which answers each buffer with one completion. As long as nothing fails the layer serves its queue
message by message; the first failure of an allocation or of the serialiser breaks that for good. -/
namespace XivelyClient.Mqtt
open Serialiser

/-- The bytes in front of the payload, in a buffer of the size that has been computed. -/
def encodeHeader (message : Message) : Except SerialiserFailure (List UInt8) := do
  let size ← serialiserSize message
  let buffer ← serialiserWrite message
    (.makeEmptyDescAlloc (UInt32.ofNat (size.msgLen - size.publishPayloadLen))) size.remainingLen
  return buffer.data

/-- The second buffer of a message: the payload of a PUBLISH unless it is empty. -/
def payloadBuffer (message : Message) : Option (List UInt8) :=
  if message.common.type = .publish then
    message.publish.content.bind fun content => if 0 < content.length then some content.data else none
  else none

namespace CodecLayer

section Growth

variable {layer : CodecLayer}

theorem attempt_cases (layer : CodecLayer) :
    (∃ faults, layer.attempt = (true,{layer with faults := faults})) ∨
      ∃ faults, layer.attempt = (false,{layer with faults := faults}.emit .failed) := by
  unfold attempt
  split
  · exact .inr ⟨_,rfl⟩
  · exact .inl ⟨_,rfl⟩
  · exact .inl ⟨layer.faults,rfl⟩

theorem allocate_cases (layer : CodecLayer) (yes no : CodecLayer → CodecLayer) :
    (∃ faults, layer.allocate yes no = yes {layer with faults := faults}) ∨
      ∃ faults, layer.allocate yes no = no ({layer with faults := faults}.emit .failed) := by
  rcases layer.attempt_cases with ⟨faults,attempted⟩ | ⟨faults,attempted⟩
  · exact .inl ⟨faults,by rw [allocate,attempted]⟩
  · exact .inr ⟨faults,by rw [allocate,attempted]⟩

theorem post_cases (layer : CodecLayer) (effect : CodecEffect) :
    (∃ faults, layer.post effect = {layer with faults := faults}.emit effect) ∨
      ∃ faults, layer.post effect = {layer with faults := faults}.emit .failed :=
  layer.allocate_cases (·.emit effect) id

/-- What has happened stays in the trace. -/
def Extends (before after : CodecLayer) : Prop := before.trace <+: after.trace

theorem Extends.refl (layer : CodecLayer) : Extends layer layer := List.prefix_refl _

theorem Extends.trans {a b c : CodecLayer} (ab : Extends a b) (bc : Extends b c) : Extends a c :=
  List.IsPrefix.trans ab bc

theorem emit_extends (layer : CodecLayer) (effect : CodecEffect) : Extends layer (layer.emit effect) :=
  List.prefix_append _ _

theorem allocate_extends {yes no : CodecLayer → CodecLayer} (hyes : ∀ layer, Extends layer (yes layer))
    (hno : ∀ layer, Extends layer (no layer)) (layer : CodecLayer) : Extends layer (layer.allocate yes no) := by
  rcases layer.allocate_cases yes no with ⟨faults,eq⟩ | ⟨faults,eq⟩
  · rw [eq]
    exact hyes {layer with faults := faults}
  · rw [eq]
    exact (emit_extends {layer with faults := faults} .failed).trans (hno _)

theorem post_extends (layer : CodecLayer) (effect : CodecEffect) : Extends layer (layer.post effect) :=
  allocate_extends (fun _ => emit_extends _ _) .refl layer

theorem freeMessage_extends (layer : CodecLayer) (msg : Option SentMessage) :
    Extends layer (layer.freeMessage msg) := by
  cases msg with
  | none => exact .refl _
  | some msg => exact emit_extends _ _

theorem clearTasks_extends (tasks : List CodecTask) (layer : CodecLayer) :
    Extends layer (clearTasks tasks layer) := by
  induction tasks generalizing layer with
  | nil => exact .refl _
  | cons task tasks ih =>
    have posted := allocate_extends (fun layer => post_extends layer
      (.pushNext (.writtenData task.msgId task.msgType) .failedWriting))
      (fun layer => post_extends layer (.pushNext .null .failedWriting)) layer
    exact (posted.trans (freeMessage_extends _ task.msg)).trans (ih _)

theorem pushErrHandling_extends (layer : CodecLayer) (data : Option SentMessage) :
    Extends layer (layer.pushErrHandling data) := by
  have cleared : Extends layer {layer.clearTaskQueue with pushCs := .start} :=
    clearTasks_extends layer.taskQueue layer
  cases data with
  | none => exact cleared.trans (post_extends _ _)
  | some msg => exact cleared.trans (post_extends _ _)

/-- The layer with the id and the type of the message that it sends. -/
def encoding (layer : CodecLayer) (msg : SentMessage) : CodecLayer :=
  {layer with msgId := getMessageId msg.contents,msgType := msg.contents.common.type}

theorem pushEncode_eq (layer : CodecLayer) (msg : SentMessage) : layer.pushEncode (some msg) =
    match serialiserSize msg.contents with
    | .error .nullPointer => (layer.encoding msg).crash
    | .error .error => ((layer.encoding msg).emit .failed).pushErrHandling (some msg)
    | .ok size =>
      (layer.encoding msg).allocate
        (fun layer =>
          match serialiserWrite msg.contents
              (.makeEmptyDescAlloc (UInt32.ofNat (size.msgLen - size.publishPayloadLen))) size.remainingLen with
          | .error .nullPointer => layer.crash
          | .error .error => (layer.emit .failed).pushErrHandling (some msg)
          | .ok buffer => {layer with pushCs := .header}.post (.pushPrev buffer.data .ok))
        (·.pushErrHandling (some msg)) := rfl

theorem pushEncode_extends (layer : CodecLayer) (data : Option SentMessage) :
    Extends layer (layer.pushEncode data) := by
  cases data with
  | none => exact pushErrHandling_extends layer none
  | some msg =>
    refine Extends.trans (b := layer.encoding msg) (.refl _) ?_
    rw [pushEncode_eq]
    split
    · exact .refl _
    · exact (emit_extends _ _).trans (pushErrHandling_extends _ _)
    · refine allocate_extends ?_ (pushErrHandling_extends · _) _
      intro layer
      split
      · exact .refl _
      · exact (emit_extends _ _).trans (pushErrHandling_extends _ _)
      · exact post_extends {layer with pushCs := .header} _

theorem continueTask_extends (layer : CodecLayer) (msg : SentMessage) :
    Extends layer (layer.continueTask msg) := by
  unfold continueTask
  split <;> exact .refl _

theorem pushNextTask_extends (layer : CodecLayer) : Extends layer layer.pushNextTask := by
  unfold pushNextTask
  split
  · exact .refl _
  · rename_i done tasks found
    have popped : Extends layer {layer.freeMessage done.msg with taskQueue := tasks,pushCs := .start} :=
      freeMessage_extends layer done.msg
    split
    · exact popped
    · split
      · exact popped
      · exact popped.trans ((continueTask_extends _ _).trans (pushEncode_extends _ _))

theorem pushFinalise_extends (layer : CodecLayer) (state : XiState) :
    Extends layer (layer.pushFinalise state) := by
  unfold pushFinalise
  split
  · exact .refl _
  · rename_i task tasks found
    have freed : Extends layer {layer.freeMessage task.msg with taskQueue := {task with msg := none} :: tasks} :=
      freeMessage_extends layer task.msg
    exact freed.trans (allocate_extends (fun _ => (post_extends _ _).trans (pushNextTask_extends _))
      (pushErrHandling_extends · none) _)

theorem pushHeaderWritten_extends (layer : CodecLayer) (state : XiState) :
    Extends layer (layer.pushHeaderWritten state) := by
  unfold pushHeaderWritten
  split
  · exact .refl _
  · split
    · exact pushFinalise_extends _ _
    · split
      · split
        · exact .refl _
        · split
          · exact allocate_extends (fun layer => post_extends {layer with pushCs := .payload} _)
              (pushErrHandling_extends · none) _
          · exact pushFinalise_extends _ _
      · exact pushFinalise_extends _ _

theorem pushCoroutine_extends (layer : CodecLayer) (data : Option SentMessage) (state : XiState) :
    Extends layer (layer.pushCoroutine data state) := by
  unfold pushCoroutine
  split
  · exact pushEncode_extends _ _
  · exact pushHeaderWritten_extends _ _
  · exact pushFinalise_extends _ _

theorem push_extends (layer : CodecLayer) (data : Option SentMessage) (state : XiState) :
    Extends layer (layer.push data state) := by
  unfold push
  split
  · exact .refl _
  · split
    · exact freeMessage_extends _ _
    · split
      · refine allocate_extends ?_ (pushErrHandling_extends · _) layer
        intro layer
        dsimp only
        split
        · exact pushCoroutine_extends {layer with taskQueue := layer.taskQueue ++ [makeTask _]} _ _
        · exact .refl _
      · exact (continueTask_extends _ _).trans (pushCoroutine_extends _ _ _)
      · exact pushCoroutine_extends _ _ _

end Growth

section Failing

variable {layer : CodecLayer}

/-- The allocations and serialisations that have failed. -/
def failures (layer : CodecLayer) : Nat := layer.trace.count .failed

theorem Extends.failures {before after : CodecLayer} (more : Extends before after) :
    before.failures ≤ after.failures :=
  more.sublist.count_le _

theorem emit_failures (layer : CodecLayer) (effect : CodecEffect) : (layer.emit effect).failures =
    layer.failures + if effect = .failed then 1 else 0 := by
  simp only [CodecLayer.failures,emit,List.count_append,List.count_singleton,beq_iff_eq]

/-- The serialiser follows no NULL pointer of the message. -/
def WellFormed (message : Message) : Prop := encodeHeader message ≠ .error .nullPointer

/-- The error label hands up something that is no id and type tuple, unless there is no event for that. -/
theorem pushErrHandling_breaks (data : Option SentMessage) (failed : 0 < layer.failures) :
    1 < (layer.pushErrHandling data).failures ∨ ∃ completion,
      .pushNext completion .failedWriting ∈ (layer.pushErrHandling data).trace ∧
        ∀ id type, completion ≠ .writtenData id type := by
  obtain ⟨cleared,hcleared⟩ : ∃ cleared, {layer.clearTaskQueue with pushCs := PushCs.start} = cleared := ⟨_,rfl⟩
  obtain ⟨completion,handed,noTuple⟩ : ∃ completion,
      layer.pushErrHandling data = cleared.post (.pushNext completion .failedWriting) ∧
        ∀ id type, completion ≠ .writtenData id type := by
    cases data with
    | none => exact ⟨.null,by rw [← hcleared]; rfl,by simp⟩
    | some msg => exact ⟨.message msg.addr,by rw [← hcleared]; rfl,by simp⟩
  have more : Extends layer cleared := by
    rw [← hcleared]
    exact clearTasks_extends layer.taskQueue layer
  have before := more.failures
  rw [handed]
  rcases cleared.post_cases (.pushNext completion .failedWriting) with ⟨faults,posted⟩ | ⟨faults,posted⟩
  · right
    refine ⟨completion,?_,noTuple⟩
    rw [posted]
    simp [emit]
  · left
    have same : ({cleared with faults := faults} : CodecLayer).failures = cleared.failures := rfl
    rw [posted,emit_failures,if_pos rfl]
    omega

/-- A message is encoded and handed down, or the call down is lost, or the error label is taken. -/
theorem pushEncode_cases (layer : CodecLayer) (msg : SentMessage) (sound : WellFormed msg.contents) :
    (∃ faults bytes, encodeHeader msg.contents = .ok bytes ∧ layer.pushEncode (some msg) =
      {layer.encoding msg with pushCs := .header,faults := faults}.emit (.pushPrev bytes .ok)) ∨
    (∃ faults, layer.pushEncode (some msg) =
      {layer.encoding msg with pushCs := .header,faults := faults}.emit .failed) ∨
    ∃ failed : CodecLayer, layer.pushEncode (some msg) = failed.pushErrHandling (some msg) ∧
      layer.failures < failed.failures := by
  have noted : (layer.encoding msg).failures = layer.failures := rfl
  rw [pushEncode_eq]
  rw [WellFormed,encodeHeader] at sound
  rw [encodeHeader]
  cases sized : serialiserSize msg.contents with
  | error failure =>
    cases failure with
    | nullPointer =>
      rw [sized] at sound
      exact absurd rfl sound
    | error => exact .inr (.inr ⟨_,rfl,by rw [emit_failures,if_pos rfl,noted]; omega⟩)
  | ok size =>
    dsimp only
    rcases (layer.encoding msg).allocate_cases _ (·.pushErrHandling (some msg)) with ⟨faults,eq⟩ | ⟨faults,eq⟩
    · rw [sized] at sound
      change (serialiserWrite msg.contents _ size.remainingLen >>= fun buffer => .ok buffer.data) ≠ _ at sound
      rw [eq]
      cases written : serialiserWrite msg.contents
          (.makeEmptyDescAlloc (UInt32.ofNat (size.msgLen - size.publishPayloadLen))) size.remainingLen with
      | error failure =>
        cases failure with
        | nullPointer =>
          rw [written] at sound
          exact absurd rfl sound
        | error => exact .inr (.inr ⟨_,rfl,by rw [emit_failures,if_pos rfl]; exact Nat.lt_succ_of_le noted.ge⟩)
      | ok buffer =>
        dsimp only
        rcases post_cases {layer.encoding msg with pushCs := .header,faults := faults}
          (.pushPrev buffer.data .ok) with ⟨faults,posted⟩ | ⟨faults,posted⟩
        · refine .inl ⟨faults,buffer.data,?_,posted⟩
          change (serialiserWrite msg.contents _ size.remainingLen >>= fun buffer => .ok buffer.data) = _
          rw [written]
          rfl
        · exact .inr (.inl ⟨faults,posted⟩)
    · refine .inr (.inr ⟨_,eq,?_⟩)
      rw [emit_failures,if_pos rfl]
      exact Nat.lt_succ_of_le noted.ge

end Failing

end CodecLayer

end XivelyClient.Mqtt
