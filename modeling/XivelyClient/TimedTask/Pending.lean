import XivelyClient.EventDispatcher.BackLinks
import Mathlib.Data.List.Perm.Subperm

/-! Time events with an owner each, whose handle they are known by. -/
namespace XivelyClient.EventDispatcher.TimeEvents

/-- The owner of an event is what its handler is called with. -/
def owner (events : TimeEvents) (event : Nat) : Nat := (events.event event).eventHandle

/-- Just the owners of `waiting` have an event, and the handle for it. -/
structure Pending (events : TimeEvents) (waiting : Nat → Prop) : Prop extends WellFormed events where
  owned : ∀ event ∈ events.array, (events.event event).timeEventHandle = some (events.owner event)
  awaited : ∀ address, events.ptrToPosition address ≠ none ↔ waiting address

variable {events after : TimeEvents} {waiting : Nat → Prop} {event address : Nat} {time : Int}

theorem Pending.congr (pending : Pending events waiting) {waiting' : Nat → Prop} (same : ∀ address, waiting address ↔ waiting' address) :
    Pending events waiting' where
  toWellFormed := pending.toWellFormed
  owned := pending.owned
  awaited := fun address => (pending.awaited address).trans (same address)

/-- An event and the handle of its owner know each other. -/
theorem Pending.pointed_iff (pending : Pending events waiting) :
    events.ptrToPosition address = some event ↔ event ∈ events.array ∧ events.owner event = address := by
  constructor
  · intro there
    obtain ⟨member,named⟩ := pending.pointed address event there
    exact ⟨member,Option.some.inj ((pending.owned event member).symm.trans named)⟩
  · rintro ⟨member,rfl⟩
    exact pending.pointing event member _ (pending.owned event member)

theorem Pending.waiting_iff (pending : Pending events waiting) : waiting address ↔ ∃ event ∈ events.array, events.owner event = address := by
  rw [← pending.awaited,Option.ne_none_iff_exists']
  exact exists_congr fun event => pending.pointed_iff

theorem Pending.owner_injective (pending : Pending events waiting) {first second : Nat} (member : first ∈ events.array)
    (member' : second ∈ events.array) (same : events.owner first = events.owner second) : first = second := by
  have one := pending.pointed_iff.mpr ⟨member,rfl⟩
  have two := pending.pointed_iff.mpr ⟨member',rfl⟩
  rw [same,two] at one
  exact (Option.some.inj one).symm

theorem Pending.owners_nodup (pending : Pending events waiting) : (events.array.map events.owner).Nodup :=
  pending.nodup.map_on fun _ member _ member' same => pending.owner_injective member member' same

theorem Pending.length_le (pending : Pending events waiting) {owners : List Nat} (within : ∀ address, waiting address → address ∈ owners) :
    events.array.length ≤ owners.length := by
  have inside : events.array.map events.owner ⊆ owners := by
    intro address member
    obtain ⟨event,stored,rfl⟩ := List.mem_map.mp member
    exact within _ (pending.waiting_iff.mpr ⟨event,stored,rfl⟩)
  simpa using (pending.owners_nodup.subperm inside).length_le

/-- An owner has one event or none. -/
theorem Pending.count (pending : Pending events waiting) [Decidable (waiting address)] :
    (events.array.map events.owner).count address = if waiting address then 1 else 0 := by
  split
  · rename_i waits
    exact List.count_eq_one_of_mem pending.owners_nodup (List.mem_map.mpr (pending.waiting_iff.mp waits))
  · rename_i none_
    exact List.count_eq_zero_of_not_mem fun member => none_ (pending.waiting_iff.mpr (List.mem_map.mp member))

theorem Others.owner (others : Others events after event) {other : Nat} (different : other ≠ event) :
    after.owner other = events.owner other := by
  rw [TimeEvents.owner,others other different]
  rfl

theorem vectorPush_isSome_iff (events : TimeEvents) (event : Nat) (alloc : Bool) : (events.vectorPush event alloc).isSome = true ↔
    events.array.length < events.capacity ∨ (alloc = true ∧ events.capacity * 2 < 2 ^ 7) := by
  rw [vectorPush]
  by_cases long : events.array.length + 1 > events.capacity
  · by_cases room : alloc = true ∧ events.capacity * 2 < 2 ^ 7
    · rw [if_pos long,if_pos room]
      exact iff_of_true rfl (.inr room)
    · rw [if_pos long,if_neg room]
      exact iff_of_false Bool.false_ne_true (not_or.mpr ⟨by omega,room⟩)
  · rw [if_neg long]
    exact iff_of_true rfl (.inl (by omega))

/-- The state of an addition tells whether the vector of the events could take one more. -/
theorem add_state {state : XiState} {removed handle : Option Nat} {eventHandle : Nat} {alloc : Bool}
    (added : events.operate (.add event eventHandle time handle alloc) = some (state,removed,after)) :
    state = .ok ↔ events.array.length < events.capacity ∨ (alloc = true ∧ events.capacity * 2 < 2 ^ 7) := by
  obtain ⟨⟨state',after'⟩,adds,same⟩ := Option.map_eq_some_iff.mp added
  obtain rfl : state' = state := congrArg Prod.fst same
  have pushes := vectorPush_isSome_iff (events.make event eventHandle time) event alloc
  refine Iff.trans ?_ pushes
  rw [add] at adds
  split at adds
  · obtain ⟨⟨inserted,events'⟩,put,rest⟩ := Option.bind_eq_some_iff.mp adds
    rw [insertTimeEvent] at put
    split at put
    · rename_i refused
      cases put
      cases rest
      rw [refused]
      exact iff_of_false (by simp) Bool.false_ne_true
    · rename_i pushed grown
      obtain ⟨⟨index,bubbled⟩,_,got⟩ := Option.bind_eq_some_iff.mp put
      obtain ⟨added',_,is⟩ := Option.map_eq_some_iff.mp got
      obtain rfl : some added' = inserted := congrArg Prod.fst is
      rw [grown]
      dsimp only at rest
      split at rest
      · cases handle <;> cases rest <;> exact iff_of_true rfl rfl
      · cases rest
  · cases adds

/-- The vector of the events takes one more, if there is memory. -/
def Room (events : TimeEvents) : Prop := events.array.length < events.capacity ∨ events.capacity * 2 < 2 ^ 7

instance (events : TimeEvents) : Decidable events.Room :=
  inferInstanceAs (Decidable (events.array.length < events.capacity ∨ events.capacity * 2 < 2 ^ 7))

theorem add_ok_iff {state : XiState} {removed handle : Option Nat} {eventHandle : Nat}
    (added : events.operate (.add event eventHandle time handle true) = some (state,removed,after)) : state = .ok ↔ events.Room := by
  simpa [Room] using add_state added

/-- An address that waits for nothing has no event to its name. -/
theorem Pending.allowed (pending : Pending events waiting) (new : event ∉ events.array) (idle : ¬ waiting address) :
    Allowed events (.add event address time (some address) true) := by
  refine ⟨new,?_⟩
  rintro _ ⟨⟩
  by_contra set
  exact idle ((pending.awaited address).mp set)

theorem Pending.added (pending : Pending events waiting) (new : event ∉ events.array) (idle : ¬ waiting address) (room : events.Room) :
    ∃ after, events.operate (.add event address time (some address) true) = some (.ok,none,after) ∧
      Pending after fun other => other = address ∨ waiting other := by
  obtain ⟨state,removed,after,done,operated,wellFormed,_⟩ :=
    @operate_wellFormed _ _ pending.toWellFormed (@Pending.allowed _ _ _ _ time pending new idle)
  obtain rfl := (add_ok_iff done).mpr room
  cases operated with
  | added split array earlier later made others pointed =>
    have own : after.owner event = address := by rw [owner,made]
    have pointed : after.ptrToPosition = Function.update events.ptrToPosition address (some event) := pointed
    refine ⟨after,done,wellFormed,?_,?_⟩
    · intro other member
      by_cases same : other = event
      · rw [same,own,made]
      · rw [others.owner same,others other same]
        refine pending.owned other ?_
        rw [split]
        simpa [array,same] using member
    · intro other
      rw [pointed]
      by_cases same : other = address
      · simp [same]
      · rw [Function.update_of_ne same,pending.awaited]
        simp [same]

theorem Pending.refused (pending : Pending events waiting) (new : event ∉ events.array) (idle : ¬ waiting address) (full : ¬ events.Room) :
    ∃ after, events.operate (.add event address time (some address) true) = some (.outOfMemory,none,after) ∧ Pending after waiting := by
  obtain ⟨state,removed,after,done,operated,wellFormed,_⟩ :=
    @operate_wellFormed _ _ pending.toWellFormed (@Pending.allowed _ _ _ _ time pending new idle)
  cases operated with
  | added => exact absurd ((add_ok_iff done).mp rfl) full
  | full =>
    have others := @make_others events event address time
    refine ⟨_,done,wellFormed,?_,pending.awaited⟩
    intro other member
    have different : other ≠ event := fun same => new (same ▸ member)
    rw [others.owner different,others other different]
    exact pending.owned other member

/-- An event that leaves takes the handle of its owner with it. -/
theorem Pending.left (pending : Pending events waiting) (wellFormed : WellFormed after)
    (others : Others events after event) (stays : ∀ other ∈ after.array, other ∈ events.array ∧ other ≠ event)
    (pointed : after.ptrToPosition = Function.update events.ptrToPosition (events.owner event) none) :
    Pending after fun other => other ≠ events.owner event ∧ waiting other where
  toWellFormed := wellFormed
  owned := by
    intro other there
    obtain ⟨before,different⟩ := stays other there
    rw [others.owner different,others other different]
    exact pending.owned other before
  awaited := by
    intro other
    rw [pointed]
    by_cases same : other = events.owner event
    · simp [same]
    · rw [Function.update_of_ne same,pending.awaited]
      simp [same]

theorem Pending.cancelled (pending : Pending events waiting) (waits : waiting address) :
    ∃ removed after, events.operate (.cancel address) = some (.ok,removed,after) ∧ Pending after fun other => other ≠ address ∧ waiting other := by
  have allowed : Allowed events (.cancel address) := (pending.awaited address).mpr waits
  obtain ⟨state,removed,after,done,operated,wellFormed,released⟩ := operate_wellFormed pending.toWellFormed allowed
  cases operated with
  | @cancelled _ event front behind _ pointed split array others unset =>
    obtain ⟨member,own⟩ := pending.pointed_iff.mp pointed
    obtain ⟨gone,_⟩ := released event rfl
    refine ⟨some event,after,done,?_⟩
    rw [← own]
    refine pending.left wellFormed others (fun other there => ⟨?_,fun same => gone (same ▸ there)⟩) (by rw [unset,own])
    rw [array] at there
    rw [split]
    simp only [List.mem_append,List.mem_cons] at there ⊢
    tauto

theorem Pending.restarted (pending : Pending events waiting) (waits : waiting address) :
    ∃ after, events.operate (.restart address time) = some (.ok,none,after) ∧ Pending after waiting := by
  have allowed : Allowed events (.restart address time) := (pending.awaited address).mpr waits
  obtain ⟨state,removed,after,done,operated,wellFormed,_⟩ := operate_wellFormed pending.toWellFormed allowed
  cases operated with
  | @restarted _ event _ front front' behind behind' _ pointed split array kept earlier later made others same =>
    refine ⟨after,done,wellFormed,?_,fun other => same ▸ pending.awaited other⟩
    have member : event ∈ events.array := by simp [split]
    intro other there
    by_cases this : other = event
    · subst this
      rw [owner,made]
      exact pending.owned other member
    · rw [others.owner this,others other this]
      refine pending.owned other ?_
      have stays : other ∈ front' ++ behind' := by simpa [array,this] using there
      rw [kept] at stays
      simp only [split,List.mem_append,List.mem_cons] at stays ⊢
      tauto

theorem Pending.top (pending : Pending events waiting) {rest : List Nat} (array : events.array = event :: rest) :
    ∃ after, events.operate .getTop = some (.ok,some event,after) ∧ waiting (events.owner event) ∧
      Pending after fun other => other ≠ events.owner event ∧ waiting other := by
  have allowed : Allowed events .getTop := trivial
  obtain ⟨state,removed,after,done,operated,wellFormed,released⟩ := operate_wellFormed pending.toWellFormed allowed
  have member : event ∈ events.array := by rw [array]; exact List.mem_cons_self
  cases operated with
  | empty none_ => simp [none_] at array
  | @top event' rest' _ split array' others pointed =>
    obtain ⟨rfl,rfl⟩ : event = event' ∧ rest = rest' := by simpa using array.symm.trans split
    obtain ⟨gone,_⟩ := released event rfl
    refine ⟨after,done,pending.waiting_iff.mpr ⟨event,member,rfl⟩,?_⟩
    refine pending.left wellFormed others (fun other there => ⟨?_,fun same => gone (same ▸ there)⟩) ?_
    · rw [array'] at there
      rw [array]
      exact List.mem_cons_of_mem event there
    · rw [pointed,pending.owned event member]

end XivelyClient.EventDispatcher.TimeEvents
