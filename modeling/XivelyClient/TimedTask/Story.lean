import XivelyClient.TimedTask.Scheduler

/-! What is told of each task, from when it is added to when its memory is freed. -/
namespace XivelyClient.TimedTask

/-- No start comes after a removal, and nothing after the memory was freed. -/
def Before (first second : Happening) : Prop :=
  (∀ serial, first = .removed serial → second ≠ .started serial) ∧ ∀ serial, first = .freed serial → second.serial ≠ serial

/-- What has been told of a task that is not freed. -/
structure Kept (log : List Happening) (task : Task) : Prop where
  added : ∃ handle oneShot, .added task.serial handle oneShot ∈ log
  unfreed : .freed task.serial ∉ log
  removed : .removed task.serial ∈ log → task.state = .deletable
  once : ∀ handle, .added task.serial handle true ∈ log →
    task.secondsRepeat = 0 ∧ log.count (.started task.serial) ≤ if task.state = .scheduled then 0 else 1

/-- What has been told of all tasks. -/
structure Told (task : Nat → Option Task) (serials : Nat) (log : List Happening) (live : Handle.Live Nat) : Prop where
  kept : ∀ address known, task address = some known → Kept log known
  distinct : ∀ first second known known', task first = some known → task second = some known' → known.serial = known'.serial →
    first = second
  numbered : ∀ happening ∈ log, happening.serial < serials
  ordered : log.Pairwise Before
  once : ∀ serial handle, .added serial handle true ∈ log → log.count (.started serial) ≤ 1
  lives : ∀ serial handle oneShot, .added serial handle oneShot ∈ log → .freed serial ∈ log ∨
    ∃ address known, task address = some known ∧ known.serial = serial ∧ (address,handle) ∈ live

section Log

variable {log : List Happening} {happening : Happening} {known : Task} {serial : Nat}

theorem mem_other (differs : happening.serial ≠ serial) {other : Happening} (is : other.serial = serial) :
    other ∈ log ++ [happening] ↔ other ∈ log := by
  rw [List.mem_append,List.mem_singleton,or_iff_left]
  rintro rfl
  exact differs is

theorem count_other (differs : happening ≠ .started serial) : (log ++ [happening]).count (.started serial) = log.count (.started serial) := by
  have none_ : [happening].count (.started serial) = 0 := List.count_eq_zero_of_not_mem (by simpa using differs.symm)
  rw [List.count_append,none_,Nat.add_zero]

theorem Kept.append (kept : Kept log known) (differs : happening.serial ≠ known.serial) : Kept (log ++ [happening]) known where
  added := by
    obtain ⟨handle,oneShot,there⟩ := kept.added
    exact ⟨handle,oneShot,List.mem_append_left _ there⟩
  unfreed := by
    rw [mem_other differs rfl]
    exact kept.unfreed
  removed := by
    rw [mem_other differs rfl]
    exact kept.removed
  once := by
    intro handle
    rw [mem_other differs rfl,count_other (by rintro rfl; exact differs rfl)]
    exact kept.once handle

theorem ordered_append (ordered : log.Pairwise Before) (unfreed : .freed happening.serial ∉ log)
    (starts : ∀ serial, happening = .started serial → .removed serial ∉ log) : (log ++ [happening]).Pairwise Before := by
  refine List.pairwise_append.mpr ⟨ordered,List.pairwise_singleton _ _,?_⟩
  intro first member second last
  obtain rfl := List.mem_singleton.mp last
  refine ⟨?_,?_⟩
  · rintro serial rfl is
    exact starts serial is member
  · rintro serial rfl is
    exact unfreed (is ▸ member)

end Log

section Story

variable {task : Nat → Option Task} {serials address : Nat} {log : List Happening} {live : Handle.Live Nat} {known known' : Task}
  {happening : Happening}

theorem Told.serial_lt (told : Told task serials log live) (here : task address = some known) : known.serial < serials := by
  obtain ⟨_,_,there⟩ := (told.kept address known here).added
  exact told.numbered _ there

theorem Told.other (told : Told task serials log live) (here : task address = some known) {other : Nat} (differs : other ≠ address)
    (there : task other = some known') : known.serial ≠ known'.serial :=
  fun same => differs (told.distinct _ _ _ _ there here same.symm)

theorem Told.inherit (told : Told task serials log live) {task' : Nat → Option Task}
    (inherits : ∀ other found, task' other = some found → ∃ old, task other = some old ∧ old.serial = found.serial)
    (first second : Nat) (one two : Task) (there : task' first = some one) (there' : task' second = some two) (same : one.serial = two.serial) :
    first = second := by
  obtain ⟨old,before,is⟩ := inherits first one there
  obtain ⟨old',before',is'⟩ := inherits second two there'
  exact told.distinct _ _ _ _ before before' (is.trans (same.trans is'.symm))

theorem inherits_some (here : task address = some known) (same : known'.serial = known.serial) (other : Nat) (found : Task)
    (there : Function.update task address (some known') other = some found) : ∃ old, task other = some old ∧ old.serial = found.serial := by
  by_cases this : other = address
  · subst this
    rw [Function.update_self] at there
    exact ⟨known,here,Option.some.inj there ▸ same.symm⟩
  · rw [Function.update_of_ne this] at there
    exact ⟨found,there,rfl⟩

theorem inherits_none (other : Nat) (found : Task) (there : Function.update task address none other = some found) :
    other ≠ address ∧ task other = some found := by
  by_cases this : other = address
  · subst this
    rw [Function.update_self] at there
    cases there
  · rw [Function.update_of_ne this] at there
    exact ⟨this,there⟩

/-- A task with a new state, or the same, and what is told of it. -/
theorem Told.revised (told : Told task serials log live) (here : task address = some known) (same : known'.serial = known.serial)
    (of : happening.serial = known.serial) (kept : Kept (log ++ [happening]) known')
    (starts : ∀ serial, happening = .started serial → .removed serial ∉ log)
    (plain : ∀ serial handle oneShot, happening ≠ .added serial handle oneShot) :
    Told (Function.update task address (some known')) serials (log ++ [happening]) live where
  kept := by
    intro other found there
    by_cases this : other = address
    · subst this
      rw [Function.update_self] at there
      exact Option.some.inj there ▸ kept
    · rw [Function.update_of_ne this] at there
      exact (told.kept other found there).append (of ▸ told.other here this there)
  distinct := told.inherit (inherits_some here same)
  numbered := by
    intro other member
    rcases List.mem_append.mp member with before | last
    · exact told.numbered other before
    · obtain rfl := List.mem_singleton.mp last
      exact of ▸ told.serial_lt here
  ordered := ordered_append told.ordered (of ▸ (told.kept address known here).unfreed) starts
  once := by
    intro serial handle member
    by_cases own : serial = known'.serial
    · subst own
      refine (kept.once handle member).2.trans ?_
      split <;> omega
    · have before : .added serial handle true ∈ log := by simpa [(plain serial handle true).symm] using member
      rw [count_other]
      · exact told.once serial handle before
      · rintro rfl
        exact own (of.trans same.symm)
  lives := by
    intro serial handle oneShot member
    have before : .added serial handle oneShot ∈ log := by simpa [(plain serial handle oneShot).symm] using member
    rcases told.lives serial handle oneShot before with freed | ⟨other,found,there,is,alive⟩
    · exact .inl (List.mem_append_left _ freed)
    · refine .inr ?_
      by_cases this : other = address
      · subst this
        obtain rfl := Option.some.inj (here.symm.trans there)
        exact ⟨other,known',Function.update_self _ _ _,same.trans is,alive⟩
      · exact ⟨other,found,by rw [Function.update_of_ne this,there],is,alive⟩

/-- A task that waits again. It is not one of those that run once. -/
theorem Told.rescheduled (told : Told task serials log live) (here : task address = some known) (repeats : known.secondsRepeat ≠ 0)
    (lasting : known.state ≠ .deletable) :
    Told (Function.update task address (some {known with state := .scheduled})) serials log live where
  kept := by
    intro other found there
    by_cases this : other = address
    · subst this
      rw [Function.update_self] at there
      obtain rfl := Option.some.inj there
      have kept := told.kept other known here
      exact ⟨kept.added,kept.unfreed,fun removed => absurd (kept.removed removed) lasting,
        fun handle member => absurd (kept.once handle member).1 repeats⟩
    · rw [Function.update_of_ne this] at there
      exact told.kept other found there
  distinct := told.inherit (inherits_some here rfl)
  numbered := told.numbered
  ordered := told.ordered
  once := told.once
  lives := by
    intro serial handle oneShot member
    rcases told.lives serial handle oneShot member with freed | ⟨other,found,there,is,alive⟩
    · exact .inl freed
    · refine .inr ?_
      by_cases this : other = address
      · subst this
        obtain rfl := Option.some.inj (here.symm.trans there)
        exact ⟨other,_,Function.update_self _ _ _,is,alive⟩
      · exact ⟨other,found,by rw [Function.update_of_ne this,there],is,alive⟩

theorem Told.started (told : Told task serials log live) (here : task address = some known) (waits : known.state = .scheduled) :
    Told (Function.update task address (some {known with state := .running})) serials (log ++ [.started known.serial]) live := by
  have kept := told.kept address known here
  have unremoved : .removed known.serial ∉ log := fun removed => by simp [kept.removed removed] at waits
  refine told.revised here rfl rfl ⟨?_,?_,?_,?_⟩ ?_ (by simp)
  · obtain ⟨handle,oneShot,there⟩ := kept.added
    exact ⟨handle,oneShot,List.mem_append_left _ there⟩
  · simpa using kept.unfreed
  · intro removed
    exact absurd (by simpa using removed) unremoved
  · intro handle member
    obtain ⟨repeats,runs⟩ := kept.once handle (by simpa using member)
    rw [if_pos waits] at runs
    refine ⟨repeats,?_⟩
    rw [if_neg (by simp),List.count_append,List.count_singleton_self]
    exact Nat.succ_le_succ runs
  · rintro serial ⟨⟩
    exact unremoved

theorem Told.removed (told : Told task serials log live) (here : task address = some known) :
    Told (Function.update task address (some {known with state := .deletable})) serials (log ++ [.removed known.serial]) live := by
  have kept := told.kept address known here
  refine told.revised here rfl rfl ⟨?_,?_,fun _ => rfl,?_⟩ (by simp) (by simp)
  · obtain ⟨handle,oneShot,there⟩ := kept.added
    exact ⟨handle,oneShot,List.mem_append_left _ there⟩
  · simpa using kept.unfreed
  · intro handle member
    obtain ⟨repeats,runs⟩ := kept.once handle (by simpa using member)
    refine ⟨repeats,?_⟩
    rw [if_neg (by simp),count_other (by simp)]
    refine runs.trans ?_
    split <;> omega

theorem Told.freed (told : Told task serials log live) (here : task address = some known) :
    Told (Function.update task address none) serials (log ++ [.freed known.serial]) (Handle.without address live) where
  kept := by
    intro other found there
    obtain ⟨this,before⟩ := inherits_none other found there
    exact (told.kept other found before).append (told.other here this before)
  distinct := told.inherit fun other found there => ⟨found,(inherits_none other found there).2,rfl⟩
  numbered := by
    intro other member
    rcases List.mem_append.mp member with before | last
    · exact told.numbered other before
    · obtain rfl := List.mem_singleton.mp last
      exact told.serial_lt here
  ordered := ordered_append told.ordered (told.kept address known here).unfreed (by simp)
  once := by
    intro serial handle member
    rw [count_other (by simp)]
    exact told.once serial handle (by simpa using member)
  lives := by
    intro serial handle oneShot member
    rcases told.lives serial handle oneShot (by simpa using member) with freed | ⟨other,found,there,is,alive⟩
    · exact .inl (List.mem_append_left _ freed)
    · by_cases this : other = address
      · subst this
        obtain rfl := Option.some.inj (here.symm.trans there)
        exact .inl (by simp [is])
      · refine .inr ⟨other,found,by rw [Function.update_of_ne this,there],is,?_⟩
        exact List.mem_filter.mpr ⟨alive,by simpa using this⟩

/-- A task that is added takes the next number. -/
theorem Told.added (told : Told task serials log live) {seconds handle : Int} {oneShot : Bool} (new : task address = none)
    (single : oneShot = true → seconds = 0) :
    Told (Function.update task address (some ⟨seconds,.scheduled,serials⟩)) (serials + 1) (log ++ [.added serials handle oneShot])
      ((address,handle) :: live) := by
  have unheard : ∀ happening : Happening, happening.serial = serials → happening ∉ log := by
    intro happening is member
    exact absurd (told.numbered happening member) (by omega)
  constructor
  · intro other found there
    by_cases this : other = address
    · subst this
      rw [Function.update_self] at there
      obtain rfl := Option.some.inj there
      refine ⟨⟨handle,oneShot,by simp⟩,?_,?_,?_⟩
      · simpa using unheard _ rfl
      · intro removed
        exact absurd (by simpa using removed) (unheard (.removed serials) rfl)
      · intro handle' member
        have is : oneShot = true := by
          rcases List.mem_append.mp member with before | last
          · exact absurd before (unheard _ rfl)
          · simp at last
            exact last.2
        refine ⟨single is,?_⟩
        rw [if_pos rfl,count_other (by simp),List.count_eq_zero_of_not_mem (unheard _ rfl)]
    · rw [Function.update_of_ne this] at there
      exact (told.kept other found there).append (told.serial_lt there).ne'
  · intro first second one two there there' same
    by_cases this : first = address <;> by_cases that : second = address
    · rw [this,that]
    · rw [Function.update_of_ne that] at there'
      rw [this,Function.update_self] at there
      obtain rfl := Option.some.inj there
      exact absurd same (told.serial_lt there').ne'
    · rw [Function.update_of_ne this] at there
      rw [that,Function.update_self] at there'
      obtain rfl := Option.some.inj there'
      exact absurd same (told.serial_lt there).ne
    · rw [Function.update_of_ne this] at there
      rw [Function.update_of_ne that] at there'
      exact told.distinct _ _ _ _ there there' same
  · intro other member
    rcases List.mem_append.mp member with before | last
    · exact (told.numbered other before).trans (Nat.lt_succ_self _)
    · obtain rfl := List.mem_singleton.mp last
      exact Nat.lt_succ_self _
  · exact ordered_append told.ordered (unheard _ rfl) (by simp)
  · intro serial handle' member
    rw [count_other (by simp)]
    rcases List.mem_append.mp member with before | last
    · exact told.once serial handle' before
    · obtain ⟨rfl,_⟩ : serial = serials ∧ _ := by simpa using last
      rw [List.count_eq_zero_of_not_mem (unheard _ rfl)]
      exact Nat.zero_le 1
  · intro serial handle' oneShot' member
    rcases List.mem_append.mp member with before | last
    · rcases told.lives serial handle' oneShot' before with freed | ⟨other,found,there,is,alive⟩
      · exact .inl (List.mem_append_left _ freed)
      · have this : other ≠ address := by
          rintro rfl
          rw [new] at there
          cases there
        exact .inr ⟨other,found,by rw [Function.update_of_ne this,there],is,List.mem_cons_of_mem _ alive⟩
    · obtain ⟨rfl,rfl,_⟩ : serial = serials ∧ handle' = handle ∧ _ := by simpa using last
      exact .inr ⟨address,_,Function.update_self _ _ _,rfl,List.mem_cons_self⟩

/-- A task that could not be added is freed at once. -/
theorem Told.dropped (told : Told task serials log live) : Told task (serials + 1) (log ++ [.freed serials]) live where
  kept := fun other found there => (told.kept other found there).append (told.serial_lt there).ne'
  distinct := told.distinct
  numbered := by
    intro other member
    rcases List.mem_append.mp member with before | last
    · exact (told.numbered other before).trans (Nat.lt_succ_self _)
    · obtain rfl := List.mem_singleton.mp last
      exact Nat.lt_succ_self _
  ordered := ordered_append told.ordered (fun member => (told.numbered _ member).false) (by simp)
  once := by
    intro serial handle member
    rw [count_other (by simp)]
    exact told.once serial handle (by simpa using member)
  lives := by
    intro serial handle oneShot member
    exact (told.lives serial handle oneShot (by simpa using member)).imp_left (List.mem_append_left _)

end Story

end XivelyClient.TimedTask
