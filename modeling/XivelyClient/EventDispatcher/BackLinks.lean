import XivelyClient.EventDispatcher.Operations

/-! The order, the positions and the handles of the time events stay right over any operations. -/
namespace XivelyClient.EventDispatcher.TimeEvents

/-- What the container is after an operation; one that fails an assertion changes nothing. -/
def step (events : TimeEvents) (operation : Operation) : TimeEvents :=
  ((events.operate operation).map fun result => result.2.2).getD events

/-- An event that was given back is stored no more, and its handle is unset. -/
def Released (before after : TimeEvents) (removed : Option Nat) : Prop :=
  ∀ event, removed = some event →
    event ∉ after.array ∧ ∀ handle, (before.event event).timeEventHandle = some handle → after.ptrToPosition handle = none

/-- The operation asserts nothing that is false, and releases what it gives back. -/
def Succeeds (events : TimeEvents) (operation : Operation) : Prop :=
  ∃ state removed after, events.operate operation = some (state,removed,after) ∧ Released events after removed

section Links

variable {events after : TimeEvents} {operation : Operation} {state : XiState} {removed : Option Nat}

theorem operate_operated (wellFormed : WellFormed events) (allowed : Allowed events operation) :
    ∃ state removed after, events.operate operation = some (state,removed,after) ∧
      Operated events operation state removed after ∧ Placed after := by
  cases operation with
  | add event eventHandle time handle alloc => exact add_operated wellFormed allowed.1 allowed.2
  | getTop => exact getTop_operated wellFormed
  | restart handle newTime => exact restart_operated wellFormed allowed
  | cancel handle => exact cancel_operated wellFormed allowed

theorem Operated.sorted (operated : Operated events operation state removed after) (wellFormed : WellFormed events)
    (allowed : Allowed events operation) : after.array.Pairwise fun first second => after.time first ≤ after.time second := by
  have retimed {array : List Nat} (sorted : array.Pairwise fun first second => events.time first ≤ events.time second)
      (same : ∀ event ∈ array, after.time event = events.time event) :
      array.Pairwise fun first second => after.time first ≤ after.time second := by
    refine sorted.imp_of_mem fun {first second} member member' less => ?_
    rw [same first member,same second member']
    exact less
  cases operated with
  | @added event eventHandle time handle alloc front behind _ split array earlier later made others pointed =>
    have different (other : Nat) (member : other ∈ front ++ behind) : other ≠ event :=
      fun same => allowed.1 (same ▸ split ▸ member)
    have timed : after.time event = time := congrArg TimeEvent.timeOfExecution made
    rw [array]
    refine pairwise_between (retimed (split ▸ wellFormed.sorted) fun other member => others.time (different other member)) ?_ ?_
    · intro other member
      rw [timed,others.time (different other (List.mem_append_left _ member))]
      exact earlier other member
    · intro other member
      rw [timed,others.time (different other (List.mem_append_right _ member))]
      exact Int.le_of_lt (later other member)
  | full => exact retimed wellFormed.sorted fun event member => make_others.time fun same => allowed.1 (same ▸ member)
  | empty array => exact wellFormed.sorted
  | @top event rest _ split array others pointed =>
    have nodup := wellFormed.nodup
    have sorted := wellFormed.sorted
    rw [split] at nodup sorted
    rw [array]
    exact retimed (List.pairwise_cons.mp sorted).2 fun other member =>
      others.time fun same => (List.nodup_cons.mp nodup).1 (same ▸ member)
  | @restarted handle event newTime front front' behind behind' _ pointed split array kept earlier later made others same =>
    have nodup := wellFormed.nodup
    have sorted := wellFormed.sorted
    rw [split] at nodup sorted
    have different (other : Nat) (member : other ∈ front' ++ behind') : other ≠ event := by
      rintro rfl
      exact (List.nodup_cons.mp (List.perm_middle.nodup_iff.mp nodup)).1 (kept ▸ member)
    have without : (front' ++ behind').Sublist (front ++ event :: behind) :=
      kept ▸ (List.sublist_cons_self event behind).append_left front
    have timed : after.time event = newTime := congrArg TimeEvent.timeOfExecution made
    rw [array]
    refine pairwise_between (retimed (sorted.sublist without) fun other member => others.time (different other member)) ?_ ?_
    · intro other member
      rw [timed,others.time (different other (List.mem_append_left _ member))]
      exact earlier other member
    · intro other member
      rw [timed,others.time (different other (List.mem_append_right _ member))]
      exact later other member
  | @cancelled handle event front behind _ pointed split array others unset =>
    have nodup := wellFormed.nodup
    have sorted := wellFormed.sorted
    rw [split] at nodup sorted
    rw [array]
    refine retimed (sorted.sublist ((List.sublist_cons_self event behind).append_left front)) fun other member => ?_
    refine others.time ?_
    rintro rfl
    exact (List.nodup_cons.mp (List.perm_middle.nodup_iff.mp nodup)).1 member

/-- Handles and events know each other behind an operation that leaves the other events what they were. -/
theorem linked (wellFormed : WellFormed events) (event : Nat) (others : Others events after event)
    (rest : ∀ other, other ≠ event → (other ∈ after.array ↔ other ∈ events.array))
    (own : event ∈ after.array → ∀ handle, (after.event event).timeEventHandle = some handle →
      after.ptrToPosition handle = some event)
    (pointed : ∀ handle other, after.ptrToPosition handle = some other → other = event ∧ event ∈ after.array ∧
      (after.event event).timeEventHandle = some handle ∨ other ≠ event ∧ events.ptrToPosition handle = some other)
    (kept : ∀ handle other, other ≠ event → other ∈ events.array → events.ptrToPosition handle = some other →
      after.ptrToPosition handle = some other) :
    (∀ handle other, after.ptrToPosition handle = some other →
      other ∈ after.array ∧ (after.event other).timeEventHandle = some handle) ∧
    ∀ other ∈ after.array, ∀ handle, (after.event other).timeEventHandle = some handle →
      after.ptrToPosition handle = some other := by
  constructor
  · intro handle other set
    rcases pointed handle other set with ⟨rfl,member,known⟩ | ⟨different,set⟩
    · exact ⟨member,known⟩
    · obtain ⟨member,known⟩ := wellFormed.pointed handle other set
      exact ⟨(rest other different).mpr member,(others.handle different).trans known⟩
  · intro other member handle known
    by_cases same : other = event
    · subst same
      exact own member handle known
    · have member := (rest other same).mp member
      exact kept handle other same member (wellFormed.pointing other member handle ((others.handle same).symm.trans known))

/-- An event that has left takes its handle with it. -/
theorem removed_linked (wellFormed : WellFormed events) (event : Nat) (others : Others events after event)
    (member : event ∈ events.array) (gone : event ∉ after.array)
    (rest : ∀ other, other ≠ event → (other ∈ after.array ↔ other ∈ events.array))
    (pointed : after.ptrToPosition = match (events.event event).timeEventHandle with
      | some set => Function.update events.ptrToPosition set none
      | none => events.ptrToPosition) :
    ((∀ handle other, after.ptrToPosition handle = some other →
      other ∈ after.array ∧ (after.event other).timeEventHandle = some handle) ∧
    ∀ other ∈ after.array, ∀ handle, (after.event other).timeEventHandle = some handle →
      after.ptrToPosition handle = some other) ∧
    ∀ handle, (events.event event).timeEventHandle = some handle → after.ptrToPosition handle = none := by
  refine ⟨TimeEvents.linked wellFormed event others rest (fun here => (gone here).elim) ?_ ?_,fun handle known => ?_⟩
  · intro handle other set
    rw [pointed] at set
    right
    cases known : (events.event event).timeEventHandle with
    | none =>
      rw [known] at set
      refine ⟨?_,set⟩
      rintro rfl
      exact Option.some_ne_none handle ((wellFormed.pointed handle other set).2.symm.trans known)
    | some mine =>
      rw [known] at set
      dsimp only at set
      by_cases same : handle = mine
      · subst same
        rw [Function.update_self] at set
        cases set
      · rw [Function.update_of_ne same] at set
        refine ⟨?_,set⟩
        rintro rfl
        exact same (Option.some.inj ((wellFormed.pointed handle other set).2.symm.trans known))
  · intro handle other different member' set
    rw [pointed]
    cases known : (events.event event).timeEventHandle with
    | none => exact set
    | some mine =>
      dsimp only
      have same : handle ≠ mine := by
        rintro rfl
        exact different (Option.some.inj (set.symm.trans (wellFormed.pointing event member handle known)))
      rw [Function.update_of_ne same]
      exact set
  · rw [pointed,known]
    exact Function.update_self _ _ _

theorem mem_middle {front behind : List Nat} {event other : Nat} (different : other ≠ event) :
    other ∈ front ++ behind ↔ other ∈ front ++ event :: behind := by
  rw [List.mem_append,List.mem_append,List.mem_cons]
  simp [different]

theorem not_mem_of_split (wellFormed : WellFormed events) {front behind : List Nat} {event : Nat}
    (split : events.array = front ++ event :: behind) : event ∉ front ++ behind := by
  have nodup := wellFormed.nodup
  rw [split] at nodup
  exact (List.nodup_cons.mp (List.perm_middle.nodup_iff.mp nodup)).1

/-- The event that an operation gives back has left, with its handle. -/
theorem Operated.removed_linked {event : Nat} (operated : Operated events operation state (some event) after)
    (wellFormed : WellFormed events) :
    ((∀ handle other, after.ptrToPosition handle = some other →
      other ∈ after.array ∧ (after.event other).timeEventHandle = some handle) ∧
    ∀ other ∈ after.array, ∀ handle, (after.event other).timeEventHandle = some handle →
      after.ptrToPosition handle = some other) ∧ event ∉ after.array ∧
    ∀ handle, (events.event event).timeEventHandle = some handle → after.ptrToPosition handle = none := by
  cases operated with
  | @top _ rest _ split array others pointed =>
    have gone : event ∉ rest := @not_mem_of_split events wellFormed [] rest event split
    obtain ⟨links,unset⟩ := TimeEvents.removed_linked wellFormed event others (split ▸ List.mem_cons_self) (array ▸ gone)
      (fun other different => by
        rw [array,split]
        exact @mem_middle [] rest event other different) pointed
    exact ⟨links,array ▸ gone,unset⟩
  | @cancelled handle _ front behind _ pointed split array others unset =>
    have gone := not_mem_of_split wellFormed split
    have known := (wellFormed.pointed handle event pointed).2
    obtain ⟨links,unset⟩ := TimeEvents.removed_linked wellFormed event others
      (split ▸ List.mem_append_right _ List.mem_cons_self) (array ▸ gone)
      (fun other different => by
        rw [array,split]
        exact mem_middle different) (by rw [known]; exact unset)
    exact ⟨links,array ▸ gone,unset⟩

theorem Operated.linked (operated : Operated events operation state removed after) (wellFormed : WellFormed events)
    (allowed : Allowed events operation) :
    (∀ handle other, after.ptrToPosition handle = some other →
      other ∈ after.array ∧ (after.event other).timeEventHandle = some handle) ∧
    ∀ other ∈ after.array, ∀ handle, (after.event other).timeEventHandle = some handle →
      after.ptrToPosition handle = some other := by
  have stored (handle other event : Nat) (new : event ∉ events.array) (set : events.ptrToPosition handle = some other) :
      other ≠ event := fun same => new (same ▸ (wellFormed.pointed handle other set).1)
  cases operated with
  | @added event eventHandle time handle alloc front behind _ split array earlier later made others pointed =>
    have own : (after.event event).timeEventHandle = handle := congrArg TimeEvent.timeEventHandle made
    have here : event ∈ after.array := array ▸ List.mem_append_right _ List.mem_cons_self
    refine TimeEvents.linked wellFormed event others (fun other different => ?_) ?_ ?_ ?_
    · rw [array,split,List.mem_append,List.mem_append,List.mem_cons]
      simp [different]
    · intro _ handle' known
      rw [own] at known
      subst known
      rw [pointed]
      exact Function.update_self _ _ _
    · intro handle' other set
      rw [pointed] at set
      cases handle with
      | none => exact .inr ⟨stored handle' other event allowed.1 set,set⟩
      | some mine =>
        dsimp only at set
        by_cases same : handle' = mine
        · subst same
          rw [Function.update_self] at set
          cases set
          exact .inl ⟨rfl,here,own⟩
        · rw [Function.update_of_ne same] at set
          exact .inr ⟨stored handle' other event allowed.1 set,set⟩
    · intro handle' other different member set
      rw [pointed]
      cases handle with
      | none => exact set
      | some mine =>
        dsimp only
        have same : handle' ≠ mine := by
          rintro rfl
          exact Option.some_ne_none other (set.symm.trans (allowed.2 handle' rfl))
        rw [Function.update_of_ne same]
        exact set
  | @full event eventHandle time handle alloc =>
    refine TimeEvents.linked wellFormed event make_others (fun _ _ => Iff.rfl) (fun here => (allowed.1 here).elim) ?_
      (fun _ _ _ _ set => set)
    exact fun handle' other set => .inr ⟨stored handle' other event allowed.1 set,set⟩
  | empty array => exact ⟨wellFormed.pointed,wellFormed.pointing⟩
  | top split array others pointed => exact (Operated.top split array others pointed).removed_linked wellFormed |>.1
  | @restarted handle event newTime front front' behind behind' _ pointed split array kept earlier later made others same =>
    have own : (after.event event).timeEventHandle = (events.event event).timeEventHandle := by rw [made]
    have here : event ∈ events.array := split ▸ List.mem_append_right _ List.mem_cons_self
    have here' : event ∈ after.array := array ▸ List.mem_append_right _ List.mem_cons_self
    refine TimeEvents.linked wellFormed event others (fun other different => ?_) ?_ ?_ ?_
    · rw [array,split,← mem_middle different,← mem_middle different,kept]
    · intro _ handle' known
      rw [same]
      exact wellFormed.pointing event here handle' (own.symm.trans known)
    · intro handle' other set
      rw [same] at set
      by_cases is : other = event
      · subst is
        exact .inl ⟨rfl,here',own.trans (wellFormed.pointed handle' other set).2⟩
      · exact .inr ⟨is,set⟩
    · intro handle' other _ _ set
      rw [same]
      exact set
  | cancelled pointed split array others unset =>
    exact (Operated.cancelled pointed split array others unset).removed_linked wellFormed |>.1

/-- One operation keeps the container in order, and releases the event it gives back. -/
theorem operate_wellFormed (wellFormed : WellFormed events) (allowed : Allowed events operation) :
    ∃ state removed after, events.operate operation = some (state,removed,after) ∧
      Operated events operation state removed after ∧ WellFormed after ∧ Released events after removed := by
  obtain ⟨state,removed,after,same,operated,placed⟩ := operate_operated wellFormed allowed
  obtain ⟨pointed,pointing⟩ := operated.linked wellFormed allowed
  refine ⟨state,removed,after,same,operated,⟨placed,operated.sorted wellFormed allowed,pointed,pointing⟩,fun event is => ?_⟩
  subst is
  exact (operated.removed_linked wellFormed).2

theorem step_eq {result : XiState × Option Nat × TimeEvents} (same : events.operate operation = some result) :
    events.step operation = result.2.2 := by
  unfold step
  rw [same]
  rfl

theorem create_wellFormed : WellFormed create :=
  ⟨⟨List.nodup_nil,fun _ _ none' => (Option.some_ne_none _ none'.symm).elim⟩,List.Pairwise.nil,
    fun _ _ none' => (Option.some_ne_none _ none'.symm).elim,fun _ member => (List.not_mem_nil member).elim⟩

/-- In every run of operations that the callers may ask for, the events stay sorted, each knows its place, every handle that is
set points to its own event, and the handle of an event that was given back is unset. -/
theorem wellFormed_run (operations : List Operation) (allowed : Runs.Admissible step Allowed create operations) :
    Runs.Always step (fun events => WellFormed events ∧ ∀ operation, Allowed events operation → Succeeds events operation)
      create operations := by
  have kept (events : TimeEvents) (operation : Operation) (wellFormed : WellFormed events) (may : Allowed events operation) :
      WellFormed (events.step operation) := by
    obtain ⟨state,removed,after,same,_,wellFormed',_⟩ := operate_wellFormed wellFormed may
    rw [step_eq same]
    exact wellFormed'
  refine (Runs.always_of_step kept create_wellFormed allowed).mono fun events wellFormed => ⟨wellFormed,fun operation may => ?_⟩
  obtain ⟨state,removed,after,same,_,_,released⟩ := operate_wellFormed wellFormed may
  exact ⟨state,removed,after,same,released⟩

/-- Two events of one time with a handle each: the second one is restarted, the first one cancelled. -/
def someOperations : List Operation :=
  [.add 10 1 5 (some 100) true,.add 11 2 5 (some 101) true,.restart 101 3,.cancel 100,.getTop]

theorem wellFormed_run_some : Runs.Always step
    (fun events => WellFormed events ∧ ∀ operation, Allowed events operation → Succeeds events operation) create someOperations := by
  apply wellFormed_run someOperations
  refine ⟨⟨by decide,fun set is => ?_⟩,⟨by decide,fun set is => ?_⟩,?_,?_,trivial,trivial⟩
  · cases is
    rfl
  · cases is
    decide
  · exact (by decide : (step (step create (.add 10 1 5 (some 100) true)) (.add 11 2 5 (some 101) true)).ptrToPosition 101 ≠ none)
  · exact (by decide : (step (step (step create (.add 10 1 5 (some 100) true)) (.add 11 2 5 (some 101) true))
      (.restart 101 3)).ptrToPosition 100 ≠ none)

end Links

end XivelyClient.EventDispatcher.TimeEvents
