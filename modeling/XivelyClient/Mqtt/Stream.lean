import XivelyClient.Mqtt.Framing
import XivelyClient.Mqtt.Receiving

/-! What the codec layer has delivered of a stream of packets, after any part of it. -/
namespace XivelyClient.Mqtt
open Resumable Wire ParserExecute

namespace Packet

variable (packet : Packet) (localState : XiState) {src rest : List UInt8}

/-- What the layer above gets. -/
def message : Message := decoded packet.common packet.body

theorem bytes_pos : 0 < packet.bytes.length := by
  rw [bytes]
  exact Nat.succ_pos _

theorem starts (goes : rest ≠ [] ∨ Prompt packet.body) :
    ∃ f, start (fresh localState) (packet.bytes ++ rest) = .done .ok f rest ∧ f.message = packet.message := by
  obtain ⟨f,reached,atBody,common,_,length⟩ := start_header localState (packet.header rest)
  have readable : Readable (packet.header rest).common (packet.header rest).remainingLength packet.body := packet.readable
  rw [← common,← length] at readable
  obtain ⟨g,parsed,message,_⟩ := body_parses atBody packet.body readable goes
  refine ⟨g,reached.trans parsed,?_⟩
  rw [message,common]
  rfl

/-- The parser waits behind a part of a packet, and behind all of it unless it answers. -/
theorem part (split : packet.bytes = src ++ rest) : (∃ c f, start (fresh localState) src = .more c f) ∨
    rest = [] ∧ ∃ f, start (fresh localState) src = .done .ok f [] ∧ f.message = packet.message := by
  -- one byte of a next packet behind it makes the parser answer
  have fed := start_incremental (fresh localState) rfl src (rest ++ [0]) (by simp)
  obtain ⟨f,done,message⟩ := packet.starts localState (.inl (List.cons_ne_nil 0 []))
  rw [split,List.append_assoc,fed] at done
  cases first : start (fresh localState) src with
  | more c g => exact .inl ⟨c,g,rfl⟩
  | fault =>
    rw [first,feed_fault] at done
    cases done
  | done state g left =>
    rw [first,feed_done] at done
    obtain ⟨rfl,rfl,same⟩ := Step.done.inj done
    rw [← List.append_assoc] at same
    obtain ⟨rfl,rfl⟩ := List.append_eq_nil_iff.mp (List.append_cancel_right (same.trans (List.nil_append [0]).symm))
    exact .inr ⟨rfl,g,rfl,message⟩

end Packet

namespace CodecLayer

/-- The bytes of the first packets of a stream. -/
def upTo (packets : List Packet) (count : Nat) : List UInt8 := (packets.take count).flatMap Packet.bytes

@[simp] theorem upTo_cons (packet : Packet) (packets : List Packet) (count : Nat) :
    upTo (packet :: packets) (count + 1) = packet.bytes ++ upTo packets count := rfl

/-- What `src` bytes of a stream lead to: the layer is alive and has handed up some packets from the first on. All those are among them whose
bytes are there, but perhaps the last one, behind which nothing has come yet. -/
structure Delivers (layer after : CodecLayer) (packets : List Packet) (src count : Nat) : Prop where
  alive : after.crashed = false
  open_ : after.layerState = .connected
  inside : count ≤ packets.length
  trace : after.trace = layer.trace ++ (packets.take count).map fun packet => .pullNext packet.message .ok
  complete : ∀ i packet, packets[i]? = some packet → (upTo packets (i + 1)).length ≤ src →
    Prompt packet.body ∨ (upTo packets (i + 1)).length < src → i < count

variable {layer : CodecLayer} {src rest own : List UInt8}

theorem upTo_pos {packets : List Packet} {i : Nat} {packet : Packet} (found : packets[i]? = some packet) :
    0 < (upTo packets (i + 1)).length := by
  cases packets with
  | nil => cases found
  | cons first packets =>
    rw [upTo_cons,List.length_append]
    exact Nat.add_pos_left first.bytes_pos _

theorem upTo_lt {packets : List Packet} {i : Nat} {packet : Packet} (found : packets[i]? = some packet) :
    (upTo packets i).length < (upTo packets (i + 1)).length := by
  rw [upTo,upTo,List.take_add_one,found,List.flatMap_append,List.length_append]
  simpa using packet.bytes_pos

theorem Delivers.none (alive : layer.crashed = false) (open_ : layer.layerState = .connected) (packets : List Packet) :
    Delivers layer layer packets 0 0 := by
  refine ⟨alive,open_,Nat.zero_le _,(List.append_nil _).symm,?_⟩
  intro i packet found length
  have := upTo_pos found
  omega

/-- A buffer that ends inside of the first packet, or with it. -/
theorem pull_part (waiting : Waiting layer) (packet : Packet) (packets : List Packet) (split : packet.bytes = src ++ own) :
    ∃ count, Delivers layer (layer.pull src .ok) (packet :: packets) src.length count := by
  have size := congrArg List.length split
  rw [List.length_append] at size
  have first {i : Nat} {other : Packet} (found : (packet :: packets)[i]? = some other)
      (length : (upTo (packet :: packets) (i + 1)).length ≤ src.length) : i = 0 := by
    cases i with
    | zero => rfl
    | succ i =>
      have more := upTo_pos found
      rw [upTo_cons,List.length_append] at length
      have positive := @upTo_pos packets i other found
      omega
  rcases packet.part layer.parserState split with ⟨c,f,more⟩ | ⟨rfl,f,done,message⟩
  · have started : start layer.freshFrame src = .more c f := more
    refine ⟨0,?_⟩
    rw [waiting.pull,started]
    refine ⟨waiting.alive,waiting.open_,Nat.zero_le _,(List.append_nil _).symm,?_⟩
    intro i other found length goes
    obtain rfl := first found length
    obtain rfl := Option.some.inj found
    rw [upTo_cons,List.length_append] at length goes
    have all : own = [] := List.length_eq_zero_iff.mp (by omega)
    subst all
    rcases goes with prompt | beyond
    · obtain ⟨g,done,_⟩ := packet.starts layer.parserState (.inr prompt)
      rw [split,List.append_nil,List.append_nil,more] at done
      cases done
    · omega
  · have started : start layer.freshFrame src = .done .ok f [] := done
    refine ⟨1,?_⟩
    rw [waiting.pull,started]
    refine ⟨waiting.alive,waiting.open_,Nat.succ_le_succ (Nat.zero_le _),?_,?_⟩
    · rw [List.take_succ_cons,List.take_zero,List.map_cons,List.map_nil,← message]
      rfl
    · intro i other found length _
      rw [first found length]
      exact Nat.one_pos

/-- Whatever part of a stream a buffer holds. The induction is on the packets: behind each of them the layer waits for the next one. -/
theorem pull_stream (waiting : Waiting layer) (packets : List Packet) (split : packets.flatMap Packet.bytes = src ++ rest) :
    ∃ count, Delivers layer (layer.pull src .ok) packets src.length count := by
  induction packets generalizing layer src with
  | nil =>
    obtain ⟨rfl,rfl⟩ := List.append_eq_nil_iff.mp split.symm
    rw [waiting.pull]
    exact ⟨0,waiting.alive,waiting.open_,le_rfl,(List.append_nil _).symm,fun i packet found => by cases found⟩
  | cons packet packets ih =>
    rcases List.append_eq_append_iff.mp split with ⟨own,rfl,behind⟩ | ⟨own,whole,_⟩
    · by_cases left : own = []
      · subst left
        exact pull_part waiting packet packets (show packet.bytes = packet.bytes ++ [] ++ [] by simp)
      · obtain ⟨f,done,message⟩ := packet.starts layer.parserState (.inl left)
        have started : start layer.freshFrame (packet.bytes ++ own) = .done .ok f own := done
        have next := deliver_waiting waiting .ok {f.regs with cs := .start,readCs := f.readCs} f.localState f.message
        obtain ⟨count,delivers⟩ := ih next behind
        have pulled : layer.pull (packet.bytes ++ own) .ok =
            ((layer.begun.parsed .ok {f.regs with cs := .start,readCs := f.readCs} f.localState f.message).deliver f.message).pull own .ok := by
          rw [waiting.pull,started]
          simp [answered,Executed.ofStep,left]
        rw [pulled]
        refine ⟨count + 1,delivers.alive,delivers.open_,Nat.succ_le_succ delivers.inside,?_,?_⟩
        · rw [delivers.trace,List.take_succ_cons,List.map_cons,← message]
          simp [deliver,emit,parsed,begun]
        · intro i other found length goes
          cases i with
          | zero => exact Nat.succ_pos _
          | succ i =>
            rw [upTo_cons,List.length_append,List.length_append] at length goes
            exact Nat.succ_lt_succ (delivers.complete i other found (by omega) (goes.imp_right fun beyond => by omega))
    · exact pull_part waiting packet packets whole

/-- The same, however the bytes were cut. -/
theorem receive_stream (waiting : Waiting layer) (packets : List Packet) {cuts : List (List UInt8)} (nonempty : ∀ cut ∈ cuts, cut ≠ [])
    (split : packets.flatMap Packet.bytes = cuts.flatten ++ rest) :
    ∃ count, Delivers layer (layer.receive cuts) packets cuts.flatten.length count := by
  cases cuts with
  | nil => exact ⟨0,.none waiting.alive waiting.open_ packets⟩
  | cons first cuts =>
    obtain ⟨count,delivers⟩ := pull_stream waiting packets split
    have same := receive_pull waiting first cuts fun cut member => nonempty cut (List.mem_cons_of_mem _ member)
    refine ⟨count,?_⟩
    rcases same with same | ⟨_,dead,_⟩
    · rw [show layer.receive (first :: cuts) = _ from same]
      exact delivers
    · rw [← List.flatten_cons] at dead
      exact absurd delivers.alive (dead ▸ Bool.noConfusion)

end CodecLayer

end XivelyClient.Mqtt
