import XivelyClient.Datastructures.Vector
import XivelyClient.Mqtt.Logic.Incoming

/-! Which handler a received PUBLISH is given to. -/
namespace XivelyClient

namespace XiVector

variable {α : Type} {cmp : α → Bool} {vector : XiVector α}

/-- The element at the index that the search answers. -/
def elementAt (vector : XiVector α) (index : Int) : Option α := if index = -1 then none else vector.array[index.toNat]?

theorem findFrom_eq (cmp : α → Bool) (before list : List α) :
    (findFrom cmp before.length list = -1 ∧ list.find? cmp = none) ∨
      ∃ k : Nat, findFrom cmp before.length list = (before.length + k : Nat) ∧ list[k]? = list.find? cmp ∧ k < list.length := by
  induction list generalizing before with
  | nil => exact .inl ⟨rfl,rfl⟩
  | cons e rest ih =>
    have next := ih (before ++ [e])
    rw [List.length_append,List.length_singleton] at next
    by_cases hit : cmp e = true
    · exact .inr ⟨0,by rw [findFrom,if_pos hit]; rfl,by rw [List.find?_cons_of_pos hit]; rfl,by simp⟩
    · rw [findFrom,if_neg hit,List.find?_cons_of_neg hit]
      rcases next with ⟨missing,none⟩ | ⟨k,found,same,inside⟩
      · exact .inl ⟨missing,none⟩
      · exact .inr ⟨k + 1,by rw [Nat.add_comm k,← Nat.add_assoc]; exact found,same,by simpa using inside⟩

/-- The search ends at the first element of the vector that the comparison takes. -/
theorem find_first (cmp : α → Bool) (inside : vector.elemNo ≤ vector.array.length) :
    ∃ index, vector.find cmp = some index ∧ vector.elementAt index = vector.contents.find? cmp := by
  refine ⟨findFrom cmp 0 vector.contents,by rw [find,if_pos inside]; rfl,?_⟩
  have found := findFrom_eq cmp [] vector.contents
  simp only [List.length_nil,Int.ofNat_zero,Nat.zero_add] at found
  rcases found with ⟨missing,none⟩ | ⟨k,found,same,inside⟩
  · rw [elementAt,if_pos missing,none]
  · have length : k < vector.elemNo.toNat := by
      rw [contents,List.length_take] at inside
      omega
    rw [elementAt,if_neg (by omega),found,← same,contents,List.getElem?_take_of_lt length]
    rfl

end XiVector

namespace Mqtt.Logic

/-- `memcmp` in a memory with `beyond` behind the NUL of the handler's topic. -/
def cmpTopicsIn (beyond : SubscribeData → List UInt8) (data : SubscribeData) (topic : DataDesc) : Bool :=
  topic.data.isPrefixOf (data.topic ++ 0 :: beyond data)

/-- The branches behind the search. -/
def handOver (msg : Message) : Option SubscribeData → List Effect
  | some data => [.topicCall data msg]
  | none => [.freeMessage msg]

/-- `call_topic_handler` on the vector of the handlers, for a message with this topic. -/
def callHandlerIn (beyond : SubscribeData → List UInt8) (handlers : XiVector SubscribeData) (topic : DataDesc) (msg : Message) :
    Option (List Effect) :=
  (handlers.find (cmpTopicsIn beyond · topic)).map fun index => handOver msg (handlers.elementAt index)

/-- The message goes to a handler of its own topic, or is freed when no handler has it. -/
def Dispatched (handlers : List SubscribeData) (topic : DataDesc) (msg : Message) (effects : List Effect) : Prop :=
  (∃ data ∈ handlers, data.topic = topic.data ∧ effects = [.topicCall data msg]) ∨
    ((∀ data ∈ handlers, data.topic ≠ topic.data) ∧ effects = [.freeMessage msg])

variable {beyond : SubscribeData → List UInt8} {handlers : XiVector SubscribeData} {topic : DataDesc} {msg : Message}

/-- Only a topic with a NUL in it is compared with what lies behind the handler's. -/
theorem cmpTopicsIn_eq (data : SubscribeData) (plain : 0 ∉ topic.data) :
    cmpTopicsIn beyond data topic = topic.data.isPrefixOf data.topic := by
  rw [Bool.eq_iff_iff,cmpTopicsIn,List.isPrefixOf_iff_prefix,List.isPrefixOf_iff_prefix]
  refine ⟨fun starts => ?_,fun starts => starts.trans (List.prefix_append ..)⟩
  rcases List.prefix_or_prefix_of_prefix starts (List.prefix_append ..) with inside | ⟨more,same⟩
  · exact inside
  · rw [← same,List.prefix_append_right_inj] at starts
    cases more with
    | nil => exact ⟨[],by rw [← same,List.append_nil,List.append_nil]⟩
    | cons byte more =>
      obtain ⟨rfl,_⟩ := List.cons_prefix_cons.mp starts
      exact absurd (same ▸ List.mem_append_right _ (List.mem_cons_self ..)) plain

/-- On a topic without a NUL the layer's own search is this one. -/
theorem callHandlerIn_eq (layer : LogicLayer) (same : layer.handlersForTopics = handlers.contents)
    (inside : handlers.elemNo ≤ handlers.array.length) (named : msg.publish.topicName = some topic) (plain : 0 ∉ topic.data) :
    callHandlerIn beyond handlers topic msg = some (callTopicHandler layer msg).effects := by
  obtain ⟨index,searched,first⟩ := XiVector.find_first (cmpTopicsIn beyond · topic) inside
  have agree : (cmpTopicsIn beyond · topic) = (cmpTopics · topic) := by
    funext data
    have nothing : cmpTopicsIn (fun _ => []) data topic = _ := cmpTopicsIn_eq data plain
    exact (cmpTopicsIn_eq data plain).trans nothing.symm
  rw [callHandlerIn,searched,Option.map_some,first,agree,callTopicHandler,named,same]
  simp only
  cases handlers.contents.find? (cmpTopics · topic) <;> rfl

/-- What the branches do with the handler that was found. -/
theorem dispatched_found (found : Option SubscribeData)
    (searched : handlers.contents.find? (cmpTopicsIn beyond · topic) = found) :
    Dispatched handlers.contents topic msg (handOver msg found) ↔ ∀ data, found = some data → data.topic = topic.data := by
  cases found with
  | none =>
    have none_equal : ∀ data ∈ handlers.contents, data.topic ≠ topic.data := by
      intro data member same
      have differs := List.find?_eq_none.mp searched data member
      exact differs (List.isPrefixOf_iff_prefix.mpr (same ▸ List.prefix_append ..))
    exact iff_of_true (.inr ⟨none_equal,rfl⟩) nofun
  | some data =>
    have member := List.mem_of_find?_eq_some searched
    refine ⟨fun dispatched other same => ?_,fun equal => .inl ⟨data,member,equal data rfl,rfl⟩⟩
    obtain rfl := Option.some.inj same
    rcases dispatched with ⟨other,_,equal,effects⟩ | ⟨_,effects⟩
    · obtain ⟨rfl,_⟩ : data = other ∧ msg = msg := by simpa [handOver] using effects
      exact equal
    · simp [handOver] at effects

/-- A message is dispatched by its topic exactly if the first registered topic that starts with its topic is its topic. -/
theorem dispatched_iff (beyond : SubscribeData → List UInt8) (handlers : XiVector SubscribeData) (topic : DataDesc) (msg : Message)
    (inside : handlers.elemNo ≤ handlers.array.length) :
    (∃ effects, callHandlerIn beyond handlers topic msg = some effects ∧ Dispatched handlers.contents topic msg effects) ↔
      ∀ before data after, handlers.contents = before ++ data :: after →
        (∀ other ∈ before, ¬topic.data <+: other.topic ++ 0 :: beyond other) → topic.data <+: data.topic ++ 0 :: beyond data →
          data.topic = topic.data := by
  obtain ⟨index,searched,first⟩ := XiVector.find_first (cmpTopicsIn beyond · topic) inside
  have starts (data : SubscribeData) : cmpTopicsIn beyond data topic = true ↔ topic.data <+: data.topic ++ 0 :: beyond data :=
    List.isPrefixOf_iff_prefix
  rw [callHandlerIn,searched,Option.map_some,first]
  simp only [Option.some.injEq,exists_eq_left']
  rw [dispatched_found _ rfl]
  refine ⟨fun equal before data after split others own => ?_,fun equal data found => ?_⟩
  · refine equal data (List.find?_eq_some_iff_append.mpr ⟨(starts data).mpr own,before,after,split,fun other member => ?_⟩)
    rw [Bool.not_eq_true',← Bool.not_eq_true,starts]
    exact others other member
  · obtain ⟨own,before,after,split,others⟩ := List.find?_eq_some_iff_append.mp found
    refine equal before data after split (fun other member => ?_) ((starts data).mp own)
    rw [← starts,Bool.not_eq_true,← Bool.not_eq_true']
    exact others other member

/-- One registered topic, "ab". -/
def oneHandler : XiVector SubscribeData := ⟨[⟨1,[0x61,0x62],2,1⟩],1,1,.managed⟩

/-- An empty PUBLISH on a topic. -/
def publishOn (topic : DataDesc) : Message := {common := {commonValue := Common.ofBits 0 0 0 .publish},publish := ⟨some topic,0,none⟩}

def topicA : DataDesc := ⟨[0x61],1,.managed,by decide⟩

def topicAb : DataDesc := ⟨[0x61,0x62],2,.managed,by decide⟩

/-- Two registered topics, "c" and "ab". -/
def twoHandlers : XiVector SubscribeData := ⟨[⟨1,[0x63],2,1⟩,⟨2,[0x61,0x62],3,1⟩],2,2,.managed⟩

theorem dispatched_iff_twoHandlers : ∃ effects,
    callHandlerIn (fun _ => []) twoHandlers topicAb (publishOn topicAb) = some effects ∧
      Dispatched twoHandlers.contents topicAb (publishOn topicAb) effects := by
  refine (dispatched_iff (fun _ => []) twoHandlers topicAb (publishOn topicAb) (by decide)).mpr ?_
  intro before data after split _ starts
  have member : data ∈ twoHandlers.contents := split ▸ List.mem_append_right _ (List.mem_cons_self ..)
  obtain rfl | rfl : data = ⟨1,[0x63],2,1⟩ ∨ data = ⟨2,[0x61,0x62],3,1⟩ := by simpa [twoHandlers,XiVector.contents] using member
  · exact absurd starts (by decide)
  · rfl

/-- A message on the topic "a" is given to the handler of "ab". -/
theorem misdispatched : callHandlerIn (fun _ => []) oneHandler topicA (publishOn topicA) =
      some [.topicCall ⟨1,[0x61,0x62],2,1⟩ (publishOn topicA)] ∧
    ¬∃ effects, callHandlerIn (fun _ => []) oneHandler topicA (publishOn topicA) = some effects ∧
      Dispatched oneHandler.contents topicA (publishOn topicA) effects := by
  refine ⟨rfl,?_⟩
  rintro ⟨effects,called,dispatched⟩
  obtain rfl : [Effect.topicCall ⟨1,[0x61,0x62],2,1⟩ (publishOn topicA)] = effects := Option.some.inj called
  rcases dispatched with ⟨data,member,equal,_⟩ | ⟨_,freed⟩
  · obtain rfl := List.mem_singleton.mp member
    simp [topicA] at equal
  · simp at freed

end Mqtt.Logic

end XivelyClient
