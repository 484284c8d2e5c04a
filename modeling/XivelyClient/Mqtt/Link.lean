import Mathlib.Data.List.Forall2
import XivelyClient.Io.NetWrite
import XivelyClient.Mqtt.RoundTrip
import XivelyClient.Mqtt.SendQueue
import XivelyClient.Mqtt.Stream

/-! A connection from the messages that are pushed on one codec layer to those that another one delivers, in a chain without TLS. Between
them a socket takes the buffers in pieces (`xi_io_net_layer_push`), and its bytes arrive cut in any way. The calls between the layers are
deferred: each is an event of its own. -/
namespace XivelyClient.Mqtt
open Runs SendQueue Serialiser Wire ParserExecute

section Parts

variable {msg : SentMessage} {queue done : List SentMessage} {own used now : List Bool}

/-- The buffers of a message. -/
def parts (msg : SentMessage) : List (List UInt8) := headerOf msg :: (payloadBuffer msg.contents).toList

def buffers (trace : List CodecEffect) : List (List UInt8) :=
  trace.filterMap fun | .pushPrev buffer _ => some buffer | _ => none

@[simp] theorem buffers_append (a b : List CodecEffect) : buffers (a ++ b) = buffers a ++ buffers b := List.filterMap_append

theorem length_buffers (trace : List CodecEffect) : (buffers trace).length = handedDown trace := by
  rw [buffers,List.length_filterMap_eq_countP,handedDown]
  congr 1
  funext effect
  cases effect <;> rfl

theorem buffers_answered (answered : Answered msg own) (all : ∀ answer ∈ own, answer = true) :
    buffers (transcript [msg] own) = parts msg ∧ own.length = (parts msg).length := by
  cases answered with
  | refused => exact absurd (all false (by simp)) (by simp)
  | header single => simp [transcript,finished,buffers,parts,single]
  | payload payload double written => simp [transcript,finished,buffers,parts,double]

theorem buffers_complete (complete : Complete done used) (all : ∀ answer ∈ used, answer = true) :
    buffers (transcript done used) = done.flatMap parts ∧ used.length = (done.flatMap parts).length := by
  induction complete with
  | nil => exact ⟨rfl,rfl⟩
  | snoc done used msg own before answered ih =>
    obtain ⟨sent,count⟩ := ih fun answer member => all answer (List.mem_append_left _ member)
    obtain ⟨sent',count'⟩ := buffers_answered answered fun answer member => all answer (List.mem_append_right _ member)
    rw [transcript_complete before,buffers_append,sent,sent',List.flatMap_append,List.flatMap_singleton,List.length_append,
      List.length_append,count,count']
    exact ⟨rfl,rfl⟩

theorem buffers_phase {layer : CodecLayer} (phase : Phase layer queue now) : buffers (transcript queue now) <+: queue.flatMap parts := by
  cases phase with
  | idle cs tasks => exact List.prefix_rfl
  | header cs msg queue tasks tagged =>
    rw [List.flatMap_cons,parts]
    exact ⟨_,rfl⟩
  | payload cs msg queue tasks tagged payload double =>
    rw [List.flatMap_cons,parts,double]
    simp [transcript,double,buffers]

/-- While every answer is that the buffer was written, the buffers go down in the order of the messages, and those of a message that was
reported have been answered. -/
theorem serving_buffers {w : World} (serving : Serving w) (all : ∀ answer ∈ w.answers, answer = true) :
    buffers w.layer.trace <+: w.pushed.flatMap parts ∧ w.answers.length ≤ (w.pushed.flatMap parts).length ∧
      ((w.pushed.take (reported w.layer.trace).length).flatMap parts).length ≤ w.answers.length ∧
        (reported w.layer.trace).length ≤ w.pushed.length := by
  obtain ⟨done,used,queue,now,pushed,answers,complete,phase,trace⟩ := serving.served
  rw [answers] at all
  obtain ⟨sent,count⟩ := buffers_complete complete fun answer member => all answer (List.mem_append_left _ member)
  obtain ⟨_,up,_,_⟩ := complete_counts complete
  obtain ⟨down',up',_,_⟩ := phase.counts
  have first := buffers_phase phase
  have told : (reported w.layer.trace).length = done.length := by
    rw [trace,reported_append,up,up',List.append_nil,List.length_map]
  have whole : buffers w.layer.trace <+: w.pushed.flatMap parts := by
    rw [trace,buffers_append,sent,pushed,List.flatMap_append]
    exact List.prefix_append_right_inj _ |>.mpr first
  refine ⟨whole,?_,?_,?_⟩
  · have := first.length_le
    rw [length_buffers,down'] at this
    rw [answers,List.length_append,count,pushed,List.flatMap_append,List.length_append]
    omega
  · rw [told,pushed,List.take_left,← count,answers,List.length_append]
    exact Nat.le_add_right _ _
  · rw [told,pushed,List.length_append]
    exact Nat.le_add_right _ _

end Parts

section Packets

variable {message : Message} {msg : SentMessage}

/-- What a message says: its first byte and the fields of its type. -/
def told (message : Message) : UInt8 × Fields := (message.common.commonValue,fields message)

/-- A message that both ends know, and that fits into the remaining length. -/
structure Sendable (message : Message) : Prop where
  encodable : Encodable message
  bounded : ∀ size, serialiserSize message = .ok size → size.remainingLen ≤ 268435455

/-- The parser has such a message with its last byte. Others may end in a field that is empty. -/
def Settles (message : Message) : Prop :=
  message.common.type ≠ .connect ∧ (message.common.type = .publish → 0 < message.common.qos ∨ bytesOf message.publish.content ≠ [])

theorem serialise_parts {bytes : List UInt8} (serialised : serialise message = .ok bytes) : ∃ header,
    encodeHeader message = .ok header ∧ bytes = header ++ (payloadBuffer message).toList.flatten := by
  have payload : (if message.common.type = .publish then bytesOf message.publish.content else []) =
      (payloadBuffer message).toList.flatten := by
    rw [payloadBuffer]
    split
    · cases message.publish.content with
      | none => rfl
      | some content =>
        rw [Option.bind_some]
        split
        · simp [bytesOf]
        · rename_i empty
          exact List.length_eq_zero_iff.mp (Nat.eq_zero_of_not_pos empty)
    · rfl
  rw [serialise,payload] at serialised
  rw [encodeHeader]
  cases sized : serialiserSize message with
  | error failure => rw [sized] at serialised; cases serialised
  | ok size =>
    rw [sized] at serialised
    change (serialiserWrite message _ _ >>= _) = _ at serialised
    change ∃ header, (serialiserWrite message _ _ >>= _) = _ ∧ _
    cases written : serialiserWrite message (.makeEmptyDescAlloc (UInt32.ofNat (size.msgLen - size.publishPayloadLen))) size.remainingLen with
    | error failure => rw [written] at serialised; cases serialised
    | ok buffer =>
      rw [written] at serialised
      exact ⟨buffer.data,rfl,(Except.ok.inj serialised).symm⟩

/-- The packet on the wire that a message becomes. -/
structure Stands (msg : SentMessage) (packet : Packet) : Prop where
  bytes : packet.bytes = (parts msg).flatten
  told : told packet.message = told msg.contents
  prompt : Settles msg.contents → Prompt packet.body
  some' : ∀ part ∈ parts msg, 0 < part.length ∧ part.length < 2 ^ 32

theorem payload_le {body : Body} (matching : body.Matches message.common) (carries : Carries message body) :
    (payloadBuffer message).toList.flatten.length ≤ body.encode.length := by
  rw [payloadBuffer]
  split
  · rename_i type
    cases body with
    | publish topic id payload =>
      obtain ⟨content,there,rfl⟩ := Option.map_eq_some_iff.mp carries.2.2
      rw [there,Option.bind_some]
      split
      · simp only [Option.toList_some,List.flatten_cons,List.flatten_nil,List.append_nil,Body.encode,List.length_append]
        omega
      · exact Nat.zero_le _
    | _ => simp [Body.Matches,type] at matching
  · exact Nat.zero_le _

theorem prompt_of_settles {body : Body} (matching : body.Matches message.common) (carries : Carries message body)
    (settles : Settles message) : Prompt body := by
  cases body with
  | connect c => exact absurd matching settles.1
  | publish topic id payload =>
    refine (settles.2 matching.1).imp ?_ ?_
    · intro acknowledged
      have there : id.isSome = true := matching.2.trans (decide_eq_true acknowledged)
      exact Option.isSome_iff_ne_none.mp there
    · rw [bytesOf,carries.2.2]
      exact fun full => full
  | _ => trivial

theorem stands_of_sendable (sendable : Sendable msg.contents) : ∃ packet, Stands msg packet := by
  obtain ⟨body,matching,accepted,carries⟩ := body_of_encodable sendable.encodable
  have bound : body.encode.length ≤ 268435455 := sendable.bounded _ (serialiserSize_eq matching carries)
  have short : (Base128.encode body.encode.length).length ≤ 4 :=
    Base128.length_encode_le (n := body.encode.length) (k := 3) (Nat.lt_succ_of_le bound)
  have matching' (length : UInt32) : body.Matches ⟨msg.contents.common.commonValue,length⟩ := by
    cases body <;> exact matching
  obtain ⟨header,encoded,split⟩ := serialise_parts (serialise_eq matching carries bound)
  have payload := payload_le matching carries
  have total := congrArg List.length split
  rw [List.length_cons,List.length_append,List.length_append] at total
  have header' : headerOf msg = header := headerOf_eq encoded
  refine ⟨⟨msg.contents.common.commonValue,Base128.encode body.encode.length,body,Base128.digits_encode _,short,Base128.value_encode _,
    matching' _,accepted⟩,?_,?_,prompt_of_settles matching carries,?_⟩
  · rw [parts,header',List.flatten_cons]
    exact split
  · refine Prod.ext ?_ (fields_decoded matching carries bound _)
    change (decoded ⟨_,_⟩ body).common.commonValue = _
    rw [decoded_common]
    rfl
  · intro part member
    rw [parts,header'] at member
    rcases List.mem_cons.mp member with rfl | second
    · omega
    · have there := Option.mem_toList.mp second
      rw [there] at payload total
      simp only [Option.toList_some,List.flatten_cons,List.flatten_nil,List.append_nil] at payload total
      rw [payloadBuffer] at there
      split at there
      · obtain ⟨content,_,some'⟩ := Option.bind_eq_some_iff.mp there
        split at some'
        · rename_i positive
          obtain rfl := Option.some.inj some'
          exact ⟨positive,by omega⟩
        · cases some'
      · cases there

theorem packets_of_sendable {pushed : List SentMessage} (sendable : ∀ msg ∈ pushed, Sendable msg.contents) :
    ∃ packets, List.Forall₂ Stands pushed packets := by
  induction pushed with
  | nil => exact ⟨[],.nil⟩
  | cons msg pushed ih =>
    obtain ⟨packets,stand⟩ := ih fun other member => sendable other (List.mem_cons_of_mem _ member)
    obtain ⟨packet,stands⟩ := stands_of_sendable (sendable msg List.mem_cons_self)
    exact ⟨packet :: packets,.cons stands stand⟩

theorem bytes_of_stand {pushed : List SentMessage} {packets : List Packet} (stand : List.Forall₂ Stands pushed packets) :
    packets.flatMap Packet.bytes = (pushed.flatMap parts).flatten ∧
      packets.map (fun packet => told packet.message) = pushed.map fun msg => told msg.contents := by
  induction stand with
  | nil => exact ⟨rfl,rfl⟩
  | cons stands _ ih =>
    rw [List.flatMap_cons,List.flatMap_cons,List.flatten_append,stands.bytes,ih.1,List.map_cons,List.map_cons,stands.told,ih.2]
    exact ⟨rfl,rfl⟩

end Packets

/-- `carried` is what the socket has taken of the buffers before the one it is `writing`. The receiver has been given the first `read`
bytes. -/
structure Link where
  sender : World
  writing : Option NetWrite.Layer := none
  carried : List UInt8 := []
  read : Nat := 0
  receiver : CodecLayer := {}

namespace Link

/-- What happens at the two ends: a message is pushed, the buffer of the codec layer reaches the socket, a write is answered, the codec layer
hears of it, some bytes arrive. -/
inductive Event
  | send (msg : SentMessage)
  | handOver
  | answer (answer : NetWrite.Answer)
  | complete
  | deliver (count : Nat)

def taken (link : Link) : List UInt8 := link.carried ++ (link.writing.map NetWrite.Layer.accepted).getD []

def step (link : Link) : Event → Link
  | .send msg => {link with sender := SendQueue.step link.sender (.send msg)}
  | .handOver => {link with writing := (buffers link.sender.layer.trace)[link.sender.answers.length]?.map fun buffer =>
      (NetWrite.Layer.connected buffer).push}
  | .answer answer => {link with writing := link.writing.map fun layer => layer.step answer}
  | .complete => {link with sender := SendQueue.step link.sender (.complete true),writing := none,carried := link.taken}
  | .deliver count => {link with
      read := link.read + count
      receiver := link.receiver.pull ((link.taken.drop link.read).take count) .ok}

/-- A write that has failed stays where it is: the layers are closed then, and nothing is handed over any more. -/
def Enabled (link : Link) : Event → Prop
  | .send msg => SendQueue.enabled link.sender (.send msg) ∧ Sendable msg.contents
  | .handOver => link.writing = none ∧ link.sender.answers.length < handedDown link.sender.layer.trace
  | .answer answer => ∃ layer, link.writing = some layer ∧ layer.Asked answer
  | .complete => ∃ layer, link.writing = some layer ∧ layer.phase = .ended ∧ layer.written = 1
  | .deliver count => 0 < count ∧ link.read + count ≤ link.taken.length

/-- Two connected layers, and no memory but what `faults` says for the sender. -/
def connected (faults : List Bool) : Link := {sender := SendQueue.initial faults}

/-- What the layer above the receiver has got. -/
def received (link : Link) : List (UInt8 × Fields) :=
  link.receiver.trace.filterMap fun | .pullNext message .ok => some (told message) | _ => none

def stream (link : Link) : List (List UInt8) := link.sender.pushed.flatMap parts

/-- A buffer that is with the socket, or was. -/
structure Taking (buffer : List UInt8) (layer : NetWrite.Layer) : Prop where
  ordered : layer.accepted <+: buffer
  whole : layer.written = 1 → layer.accepted = buffer
  going : layer.phase ≠ .ended → NetWrite.Writing buffer layer

structure Sound (link : Link) : Prop where
  serving : Serving link.sender
  sendable : ∀ msg ∈ link.sender.pushed, Sendable msg.contents
  answered : ∀ answer ∈ link.sender.answers, answer = true
  carried : link.carried = (link.stream.take link.sender.answers.length).flatten
  writing : ∀ layer, link.writing = some layer → link.sender.answers.length < handedDown link.sender.layer.trace ∧
    ∃ buffer, link.stream[link.sender.answers.length]? = some buffer ∧ Taking buffer layer
  received : ∃ cuts, (∀ cut ∈ cuts, cut ≠ []) ∧ cuts.flatten = link.taken.take link.read ∧
    link.receiver = CodecLayer.receive {} cuts
  bound : link.read ≤ link.taken.length

section Steps

variable {link : Link}

theorem push_accepted (layer : NetWrite.Layer) : layer.push.accepted = layer.accepted := by
  rw [NetWrite.Layer.push]
  split
  · rfl
  · split <;> rfl

theorem accepted_step (layer : NetWrite.Layer) (answer : NetWrite.Answer) : layer.accepted <+: (layer.step answer).accepted := by
  have answered (layer : NetWrite.Layer) : layer.accepted <+: (layer.answered answer).accepted := by
    cases answer with
    | busy =>
      rw [NetWrite.Layer.answered]
      split <;> exact List.prefix_rfl
    | connectionReset | error => exact List.prefix_rfl
    | ok len =>
      rw [NetWrite.Layer.answered]
      split <;> exact List.prefix_append _ _
  rw [NetWrite.Layer.step]
  split
  · exact List.prefix_rfl
  · exact push_accepted layer ▸ answered layer.push
  · exact answered layer

theorem Taking.start {buffer : List UInt8} (some' : 0 < buffer.length) (word : buffer.length < 2 ^ 32) :
    Taking buffer (NetWrite.Layer.connected buffer).push := by
  have capacity : (UInt32.ofNat buffer.length).toNat = buffer.length := by
    rw [UInt32.toNat_ofNat']
    exact Nat.mod_eq_of_lt word
  have writing : NetWrite.Writing buffer (.connected buffer) :=
    ⟨rfl,capacity,rfl,rfl,by simp [NetWrite.Layer.connected],some',by simp [NetWrite.Layer.connected],rfl,rfl⟩
  have entered := writing.push.2
  exact ⟨entered.ordered,fun written => absurd (entered.written.symm.trans written) (by decide),fun _ => entered⟩

theorem Taking.step {buffer : List UInt8} {layer : NetWrite.Layer} (taking : Taking buffer layer) {answer : NetWrite.Answer}
    (asked : layer.Asked answer) : Taking buffer (layer.step answer) := by
  cases (taking.going asked.1).step asked with
  | more writing sound => exact ⟨writing.ordered,fun written => absurd (writing.written.symm.trans written) (by decide),fun _ => writing⟩
  | done phase accepted freed written sound => exact ⟨accepted ▸ List.prefix_rfl,fun _ => accepted,fun going => absurd phase going⟩
  | broken phase ordered partly freed written failed =>
    exact ⟨ordered,fun whole => absurd (written.symm.trans whole) (by decide),fun going => absurd phase going⟩

/-- What was read stays what it was when the socket takes more. -/
theorem Sound.arrived (sound : Sound link) {taken : List UInt8} (more : link.taken <+: taken) :
    (∃ cuts, (∀ cut ∈ cuts, cut ≠ []) ∧ cuts.flatten = taken.take link.read ∧ link.receiver = CodecLayer.receive {} cuts) ∧
      link.read ≤ taken.length := by
  obtain ⟨cuts,nonempty,flat,receiver⟩ := sound.received
  refine ⟨⟨cuts,nonempty,?_,receiver⟩,sound.bound.trans more.length_le⟩
  obtain ⟨behind,rfl⟩ := more
  rw [flat,List.take_append_of_le_length sound.bound]

theorem Sound.send (sound : Sound link) {msg : SentMessage} (may : Enabled link (.send msg)) :
    Sound (step link (.send msg)) ∨ 0 < (step link (.send msg)).sender.layer.failures := by
  refine (serving_step link.sender (.send msg) sound.serving may.1).imp ?_ And.left
  intro serving
  obtain ⟨_,inside,_,_⟩ := serving_buffers sound.serving sound.answered
  have grown : (step link (.send msg)).stream = link.stream ++ parts msg := by
    change (link.sender.pushed ++ [msg]).flatMap parts = _
    rw [List.flatMap_append,List.flatMap_singleton]
    rfl
  obtain ⟨received,bound⟩ := sound.arrived List.prefix_rfl
  refine ⟨serving,?_,sound.answered,?_,?_,received,bound⟩
  · intro other member
    rcases List.mem_append.mp member with older | new
    · exact sound.sendable other older
    · rw [List.mem_singleton.mp new]
      exact may.2
  · rw [grown]
    exact sound.carried.trans (congrArg List.flatten (List.take_append_of_le_length inside).symm)
  · intro layer writing
    obtain ⟨down,buffer,found,taking⟩ := sound.writing layer writing
    have more : handedDown link.sender.layer.trace ≤ handedDown (step link (.send msg)).sender.layer.trace :=
      (CodecLayer.push_extends _ _ _).sublist.countP_le
    refine ⟨down.trans_le more,buffer,?_,taking⟩
    rw [grown]
    exact (List.getElem?_append_left (List.getElem?_eq_some_iff.mp found).1).trans found

theorem Sound.handOver (sound : Sound link) (may : Enabled link .handOver) : Sound (step link .handOver) := by
  obtain ⟨free,down⟩ := may
  obtain ⟨order,_,_,_⟩ := serving_buffers sound.serving sound.answered
  have there : link.sender.answers.length < (buffers link.sender.layer.trace).length := by rwa [length_buffers]
  obtain ⟨buffer,found⟩ : ∃ buffer, (buffers link.sender.layer.trace)[link.sender.answers.length]? = some buffer :=
    ⟨_,List.getElem?_eq_getElem there⟩
  have found' : link.stream[link.sender.answers.length]? = some buffer := by
    obtain ⟨behind,whole⟩ := order
    rw [stream,← whole,List.getElem?_append_left there,found]
  obtain ⟨msg,member,part⟩ := List.mem_flatMap.mp (List.mem_of_getElem? found')
  obtain ⟨packet,stands⟩ := stands_of_sendable (sound.sendable msg member)
  obtain ⟨some',word⟩ := stands.some' buffer part
  have same : (step link .handOver).taken = link.taken := by
    simp only [taken,step,found,free,Option.map_some,Option.getD_some,Option.map_none,Option.getD_none,push_accepted]
    rfl
  obtain ⟨received,bound⟩ := sound.arrived ⟨[],(List.append_nil _).trans same.symm⟩
  refine ⟨sound.serving,sound.sendable,sound.answered,sound.carried,?_,received,bound⟩
  intro layer writing
  have writing : (buffers link.sender.layer.trace)[link.sender.answers.length]?.map _ = some layer := writing
  rw [found] at writing
  obtain rfl := Option.some.inj writing
  exact ⟨down,buffer,found',Taking.start some' word⟩

theorem Sound.answer (sound : Sound link) {answer : NetWrite.Answer} (may : Enabled link (.answer answer)) :
    Sound (step link (.answer answer)) := by
  obtain ⟨layer,writing,asked⟩ := may
  obtain ⟨down,buffer,found,taking⟩ := sound.writing layer writing
  have more : link.taken <+: (step link (.answer answer)).taken := by
    simp only [taken,step,writing,Option.map_some,Option.getD_some]
    exact (List.prefix_append_right_inj _).mpr (accepted_step layer answer)
  obtain ⟨received,bound⟩ := sound.arrived more
  refine ⟨sound.serving,sound.sendable,sound.answered,sound.carried,?_,received,bound⟩
  intro after writing'
  have writing' : link.writing.map _ = some after := writing'
  rw [writing] at writing'
  obtain rfl := Option.some.inj writing'
  exact ⟨down,buffer,found,taking.step asked⟩

theorem Sound.complete (sound : Sound link) (may : Enabled link .complete) :
    Sound (step link .complete) ∨ 0 < (step link .complete).sender.layer.failures := by
  obtain ⟨layer,writing,_,written⟩ := may
  obtain ⟨down,buffer,found,taking⟩ := sound.writing layer writing
  refine (serving_step link.sender (.complete true) sound.serving down).imp ?_ And.left
  intro serving
  have same : (step link .complete).taken = link.taken := List.append_nil _
  obtain ⟨received,bound⟩ := sound.arrived ⟨[],(List.append_nil _).trans same.symm⟩
  refine ⟨serving,sound.sendable,?_,?_,?_,received,bound⟩
  · intro answer member
    rcases List.mem_append.mp member with older | new
    · exact sound.answered answer older
    · exact List.mem_singleton.mp new
  · change link.taken = (link.stream.take (link.sender.answers ++ [true]).length).flatten
    rw [List.length_append,List.length_singleton,List.take_add_one,found,taken,writing,sound.carried,Option.map_some,Option.getD_some,
      taking.whole written]
    simp
  · intro after writing'
    cases writing'

theorem Sound.deliver (sound : Sound link) {count : Nat} (may : Enabled link (.deliver count)) : Sound (step link (.deliver count)) := by
  obtain ⟨positive,there⟩ := may
  obtain ⟨cuts,nonempty,flat,receiver⟩ := sound.received
  refine ⟨sound.serving,sound.sendable,sound.answered,sound.carried,sound.writing,
    ⟨cuts ++ [(link.taken.drop link.read).take count],?_,?_,?_⟩,there⟩
  · intro cut member
    rcases List.mem_append.mp member with older | new
    · exact nonempty cut older
    · rw [List.mem_singleton.mp new]
      refine List.ne_nil_of_length_pos ?_
      rw [List.length_take,List.length_drop]
      omega
  · rw [List.flatten_append,List.flatten_singleton,flat]
    exact List.take_add.symm
  · change link.receiver.pull _ .ok = List.foldl _ _ _
    rw [List.foldl_append,receiver]
    rfl

theorem Sound.step (link : Link) (event : Event) (sound : Sound link) (may : Enabled link event) :
    Sound (step link event) ∨ 0 < (step link event).sender.layer.failures := by
  cases event with
  | send msg => exact sound.send may
  | handOver => exact .inl (sound.handOver may)
  | answer answer => exact .inl (sound.answer may)
  | complete => exact sound.complete may
  | deliver count => exact .inl (sound.deliver may)

theorem sound_connected (faults : List Bool) : Sound (connected faults) := by
  refine ⟨serving_initial faults,?_,?_,rfl,?_,⟨[],?_,rfl,rfl⟩,le_rfl⟩
  all_goals simp [connected,SendQueue.initial]

end Steps

/-- What a state of a run promises. What was pushed arrives in order and unchanged. Where all that the socket has taken has been read, all the
messages have arrived that were reported as written, but perhaps the last one of them, which may end in an empty field. -/
structure Promises (link : Link) : Prop where
  alive : link.receiver.crashed = false ∧ link.receiver.layerState = .connected
  ordered : link.received <+: link.sender.pushed.map fun msg => told msg.contents
  caughtUp : link.read = link.taken.length → (reported link.sender.layer.trace).length ≤ link.received.length + 1
  settled : link.read = link.taken.length → ∀ count msg, (reported link.sender.layer.trace).length = count + 1 →
    link.sender.pushed[count]? = some msg → Settles msg.contents → count + 1 ≤ link.received.length
  reported : link.sender.answers.length = handedDown link.sender.layer.trace →
    reported link.sender.layer.trace = link.sender.pushed.map tag

section Promised

variable {link : Link} {packets : List Packet} {count src i : Nat} {msg : SentMessage}

theorem received_eq (stand : List.Forall₂ Stands link.sender.pushed packets) (delivers : CodecLayer.Delivers {} link.receiver packets src count) :
    link.received = (link.sender.pushed.take count).map fun msg => told msg.contents := by
  rw [received,delivers.trace,← (bytes_of_stand (List.forall₂_take count stand)).2]
  change (([] : List CodecEffect) ++ _).filterMap _ = _
  rw [List.nil_append,List.filterMap_map]
  exact congrFun List.filterMap_eq_map _

theorem stand_at (stand : List.Forall₂ Stands link.sender.pushed packets) (found : link.sender.pushed[i]? = some msg) :
    ∃ packet, packets[i]? = some packet ∧ Stands msg packet := by
  obtain ⟨inside,rfl⟩ := List.getElem?_eq_some_iff.mp found
  have inside' : i < packets.length := stand.length_eq ▸ inside
  exact ⟨packets[i],List.getElem?_eq_getElem inside',stand.get inside inside'⟩

/-- The socket has all the buffers that were answered, and nothing but the stream. -/
theorem Sound.ordered (sound : Sound link) :
    (link.stream.take link.sender.answers.length).flatten <+: link.taken ∧ link.taken <+: link.stream.flatten := by
  have all : link.stream.flatten = link.carried ++ (link.stream.drop link.sender.answers.length).flatten := by
    rw [sound.carried,← List.flatten_append,List.take_append_drop]
  rw [← sound.carried,all]
  refine ⟨List.prefix_append _ _,(List.prefix_append_right_inj _).mpr ?_⟩
  cases writing : link.writing with
  | none => exact List.nil_prefix
  | some layer =>
    obtain ⟨_,buffer,found,taking⟩ := sound.writing layer writing
    obtain ⟨inside,rfl⟩ := List.getElem?_eq_some_iff.mp found
    rw [List.drop_eq_getElem_cons inside,List.flatten_cons]
    exact taking.ordered.trans (List.prefix_append _ _)

/-- The packets of the messages that were reported are with the socket. -/
theorem Sound.reported_taken (sound : Sound link) (stand : List.Forall₂ Stands link.sender.pushed packets) :
    (CodecLayer.upTo packets (SendQueue.reported link.sender.layer.trace).length).length ≤ link.taken.length := by
  obtain ⟨_,_,answered,_⟩ := serving_buffers sound.serving sound.answered
  have first : (link.sender.pushed.take (SendQueue.reported link.sender.layer.trace).length).flatMap parts <+: link.stream := by
    refine ⟨(link.sender.pushed.drop (SendQueue.reported link.sender.layer.trace).length).flatMap parts,?_⟩
    rw [← List.flatMap_append,List.take_append_drop]
    rfl
  obtain ⟨behind,whole⟩ := List.prefix_take_iff.mpr ⟨first,answered⟩
  rw [CodecLayer.upTo,(bytes_of_stand (List.forall₂_take _ stand)).1]
  refine List.IsPrefix.length_le (List.IsPrefix.trans ?_ sound.ordered.1)
  rw [← whole,List.flatten_append]
  exact List.prefix_append _ _

theorem Sound.promises (sound : Sound link) : Promises link := by
  obtain ⟨cuts,nonempty,flat,receiver⟩ := sound.received
  obtain ⟨packets,stand⟩ := packets_of_sendable sound.sendable
  obtain ⟨_,_,_,most⟩ := serving_buffers sound.serving sound.answered
  obtain ⟨behind,whole⟩ := (List.take_prefix link.read link.taken).trans sound.ordered.2
  have waiting : CodecLayer.Waiting {} := ⟨rfl,rfl,rfl,rfl⟩
  obtain ⟨count,delivers⟩ := CodecLayer.receive_stream waiting packets nonempty
    ((bytes_of_stand stand).1.trans (whole.symm.trans (by rw [flat])))
  rw [← receiver] at delivers
  have same := received_eq stand delivers
  have length : link.received.length = count := by
    rw [same,List.length_map,List.length_take,stand.length_eq]
    exact min_eq_left delivers.inside
  have up := sound.reported_taken stand
  rw [stand.length_eq] at most
  have src (all : link.read = link.taken.length) : cuts.flatten.length = link.taken.length := by
    rw [flat,List.length_take,all,min_self]
  refine ⟨⟨delivers.alive,delivers.open_⟩,?_,?_,?_,?_⟩
  · rw [same]
    exact (List.take_prefix _ _).map _
  · intro all
    rw [length]
    obtain ⟨up',hup⟩ : ∃ n, (SendQueue.reported link.sender.layer.trace).length = n := ⟨_,rfl⟩
    rw [hup] at up most ⊢
    -- all of the last but one is there, and a part of the last one behind it
    match up',up,most with
    | 0,_,_ => exact Nat.zero_le _
    | 1,_,_ => exact Nat.succ_le_succ (Nat.zero_le _)
    | n + 2,up,most =>
      have beyond : (CodecLayer.upTo packets (n + 1)).length < (CodecLayer.upTo packets (n + 2)).length :=
        CodecLayer.upTo_lt (List.getElem?_eq_getElem (show n + 1 < packets.length by omega))
      have arrived := delivers.complete n _ (List.getElem?_eq_getElem (by omega)) (by rw [src all]; omega) (.inr (by rw [src all]; omega))
      exact Nat.succ_le_succ arrived
  · intro all last msg reported found settles
    obtain ⟨packet,there,stands⟩ := stand_at stand found
    rw [reported] at up
    rw [length]
    exact delivers.complete last packet there ((src all).symm ▸ up) (.inl (stands.prompt settles))
  · exact sound.serving.trace_eq.2.2

end Promised

section Runs

variable {faults : List Bool} {events : List Event}

theorem step_grows (link : Link) (event : Event) : link.sender.layer.failures ≤ (step link event).sender.layer.failures := by
  cases event with
  | send msg => exact SendQueue.step_grows link.sender (.send msg)
  | complete => exact SendQueue.step_grows link.sender (.complete true)
  | handOver | answer | deliver => exact le_rfl

/-- In every state of every run in which the sender has memory, the receiver has got a part of what was pushed, from the first message on. -/
theorem arrives_in_order (admissible : Admissible step Enabled (connected faults) events)
    (clean : .failed ∉ (final step (connected faults) events).sender.layer.trace) :
    Always step Promises (connected faults) events :=
  (always_of_no_failure step_grows Sound.step (sound_connected faults) admissible (List.count_eq_zero.mpr clean)).mono
    fun _ sound => sound.promises

def disconnect : SentMessage := ⟨0,{common := {commonValue := 0xE0}}⟩

theorem disconnect_written : serialiserWrite disconnect.contents (.makeEmptyDescAlloc 2) 0 = .ok ⟨[0xE0,0],2,.managed,by decide⟩ := by
  have length (out : DataDesc) : Serialiser.writeRemainingLength out 0 = Serialiser.write8 out 0 := by
    rw [Serialiser.writeRemainingLength]
    simp
  rw [serialiserWrite]
  simp only [length]
  rfl

theorem disconnect_wellFormed : CodecLayer.WellFormed disconnect.contents := by
  change (serialiserWrite disconnect.contents (.makeEmptyDescAlloc 2) 0 >>= fun buffer => .ok buffer.data) ≠ _
  rw [disconnect_written]
  rintro ⟨⟩

/-- Behind the push of a DISCONNECT. -/
def disconnecting : Link := {sender := ⟨{
    taskQueue := [CodecLayer.makeTask disconnect]
    msgType := .disconnect
    pushCs := .header
    trace := [.pushPrev [0xE0,0] .ok]},[disconnect],[]⟩}

theorem disconnect_pushed : step (connected []) (.send disconnect) = disconnecting := by
  have encoded := CodecLayer.pushEncode_eq {taskQueue := [CodecLayer.makeTask disconnect]} disconnect
  change Link.mk ⟨CodecLayer.pushEncode {taskQueue := [CodecLayer.makeTask disconnect]} (some disconnect),[disconnect],[]⟩ none [] 0 {} = _
  have size : serialiserSize disconnect.contents = .ok ⟨2,0,0⟩ := rfl
  have written : serialiserWrite disconnect.contents (.makeEmptyDescAlloc (UInt32.ofNat (2 - 0))) 0 = .ok ⟨[0xE0,0],2,.managed,by decide⟩ :=
    disconnect_written
  simp only [encoded,size,written]
  rfl

/-- A DISCONNECT, whose two bytes leave and arrive one by one. -/
theorem arrives_in_order_disconnect : (final step (connected []) [.send disconnect,.handOver,.answer (.ok 1),.deliver 1,.answer (.ok 1),
    .complete,.deliver 1]).received = [(0xE0,.empty)] := by
  have admissible : Admissible step Enabled disconnecting [.handOver,.answer (.ok 1),.deliver 1,.answer (.ok 1),.complete,.deliver 1] := by
    refine ⟨⟨rfl,by decide⟩,⟨_,rfl,by decide,?_⟩,⟨by decide,by decide⟩,⟨_,rfl,by decide,?_⟩,⟨_,rfl,rfl,rfl⟩,⟨by decide,by decide⟩,trivial⟩
    · rintro _ ⟨⟩
      decide
    · rintro _ ⟨⟩
      decide
  have promises := (@arrives_in_order [] [.send disconnect,.handOver,.answer (.ok 1),.deliver 1,.answer (.ok 1),.complete,.deliver 1]
    ⟨⟨⟨disconnect_wellFormed,by simp [connected,SendQueue.initial]⟩,trivial,fun size sized => by cases sized; decide⟩,
      disconnect_pushed ▸ admissible⟩ (by rw [final_cons,disconnect_pushed]; decide)).last
  rw [final_cons,disconnect_pushed] at promises ⊢
  have arrived := promises.settled rfl 0 disconnect rfl rfl ⟨by decide,fun publish => by cases publish⟩
  exact promises.ordered.eq_of_length_le arrived

end Runs

end Link

end XivelyClient.Mqtt
