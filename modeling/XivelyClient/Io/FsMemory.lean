import XivelyClient.Lib.Runs
import XivelyClient.State

/-! The file system in memory (`xi_fs_memory.c`): a table of resources that are compiled in. What indexes outside of the table, or reads
through `NULL`, has no result. -/
namespace XivelyClient.FsMemory

/-- `xi_fs_memory_resource_state_t` -/
inductive ResourceState
  | closed | opened
  deriving DecidableEq, Repr

/-- `xi_fs_memory_database_t`. Its handlers are those of the built-in certificate: the array that is compiled in is `resource`. -/
structure Entry where
  fileName : List UInt8
  resource : List UInt8
  memoryPtr : Option (List UInt8) := none
  openCounter : UInt64 := 0
  resourceState : ResourceState := .closed
  deriving DecidableEq

abbrev Database := List Entry

/-- `XI_FS_INVALID_RESOURCE_HANDLE` -/
def invalidResourceHandle : Int := -1

/-- `XI_FS_MEMORY_DATABASE[handle]` -/
def Database.at (database : Database) (handle : Int) : Option Entry := if handle < 0 then none else database[handle.toNat]?

/-- `XI_FS_OPEN_WRITE` or `XI_FS_OPEN_APPEND` is set. -/
def writes (openFlags : Nat) : Bool := openFlags &&& 2 == 2 || openFlags &&& 4 == 4

/-- The entry behind `xi_fs_open`, with `xi_fs_memory_open_builtin_cert`. -/
def Entry.reopened (entry : Entry) : Entry :=
  {entry with resourceState := .opened,openCounter := entry.openCounter + 1,memoryPtr := some entry.resource}

/-- The entry behind `xi_fs_close`. -/
def Entry.released (entry : Entry) : Entry :=
  if entry.openCounter - 1 = 0 then {entry with openCounter := 0,memoryPtr := none,resourceState := .closed}
  else {entry with openCounter := entry.openCounter - 1}

/-- `xi_fs_open`; `handle` tells that there is a place for the handle. -/
def fsOpen (database : Database) (resourceName : Option (List UInt8)) (openFlags : Nat) (handle : Bool) :
    XiState × Option Int × Database :=
  match resourceName with
  | none => (.invalidParameter,none,database)
  | some resourceName =>
    if !handle then (.invalidParameter,none,database)
    else if writes openFlags then (.fsError,none,database)
    else
      match database.findIdx? (·.fileName == resourceName) with
      | none => (.fsResourceNotAvailable,some invalidResourceHandle,database)
      | some i => (.ok,some i,database.modify i Entry.reopened)

/-- `xi_fs_read`. The caller gives places for the buffer and its size, and the first of them holds `NULL`. -/
def fsRead (xiFsBufferSize : Nat) (database : Database) (resourceHandle : Int) (offset : Nat) (places empty : Bool) :
    Option (XiState × Option (List UInt8)) :=
  if resourceHandle = invalidResourceHandle ∨ database.length < resourceHandle then some (.invalidParameter,none)
  else (database.at resourceHandle).bind fun entry =>
    if entry.resourceState ≠ .opened then some (.fsError,none)
    else if !places then some (.invalidParameter,none)
    else if !empty then some (.invalidParameter,none)
    else
      let realOffset := min offset entry.resource.length
      entry.memoryPtr.map fun memory =>
        (.ok,some ((memory.drop realOffset).take (min (entry.resource.length - realOffset) xiFsBufferSize)))

/-- `xi_fs_close` -/
def fsClose (database : Database) (resourceHandle : Int) : Option (XiState × Database) :=
  if resourceHandle = invalidResourceHandle ∨ database.length < resourceHandle then some (.invalidParameter,database)
  else (database.at resourceHandle).map fun entry =>
    if entry.resourceState ≠ .opened then (.fsError,database)
    else (.ok,database.modify resourceHandle.toNat Entry.released)

inductive Call
  | open (resourceName : Option (List UInt8)) (openFlags : Nat) (handle : Bool)
  | read (resourceHandle : Int) (offset : Nat) (places empty : Bool)
  | close (resourceHandle : Int)
  deriving DecidableEq

def next (xiFsBufferSize : Nat) (database : Database) : Call → Option Database
  | .open resourceName openFlags handle => some (fsOpen database resourceName openFlags handle).2.2
  | .read resourceHandle offset places empty => (fsRead xiFsBufferSize database resourceHandle offset places empty).map fun _ => database
  | .close resourceHandle => (fsClose database resourceHandle).map Prod.snd

/-- An entry is open just as long as its counter is positive. -/
def Counted (database : Database) : Prop := ∀ entry ∈ database, entry.resourceState = .opened ↔ 0 < entry.openCounter

/-- The entry of a handle, when it is open. -/
def Open (database : Database) (resourceHandle : Int) (entry : Entry) : Prop :=
  database.at resourceHandle = some entry ∧ entry.resourceState = .opened

/-- What is promised of a call. -/
def Wanted (xiFsBufferSize : Nat) (database : Database) : Call → Prop
  | .open resourceName openFlags handle => Counted (fsOpen database resourceName openFlags handle).2.2
  | .read resourceHandle offset places empty => ∃ state bytes,
      fsRead xiFsBufferSize database resourceHandle offset places empty = some (state,bytes) ∧
        (state = .ok → ∃ entry, Open database resourceHandle entry ∧
          bytes = some ((entry.resource.drop offset).take (min (entry.resource.length - offset) xiFsBufferSize)))
  | .close resourceHandle => ∃ state database', fsClose database resourceHandle = some (state,database') ∧ Counted database' ∧
      (state = .ok → ∃ entry, Open database resourceHandle entry) ∧ (state ≠ .ok → database' = database)

/-- A handle is the invalid one, or not below it and not the first one behind the table. An open finds the counter below its largest
value. -/
def Served (database : Database) : Call → Prop
  | .open resourceName openFlags handle => ∀ name, resourceName = some name → handle = true → writes openFlags = false →
      ∀ entry, database.find? (·.fileName == name) = some entry → entry.openCounter + 1 ≠ 0
  | .read resourceHandle _ _ _ | .close resourceHandle => -1 ≤ resourceHandle ∧ resourceHandle ≠ database.length

/-- What every call leaves of an entry. -/
structure Entry.Kept (entry : Entry) : Prop where
  counted : entry.resourceState = .opened ↔ 0 < entry.openCounter
  loaded : entry.resourceState = .opened → entry.memoryPtr = some entry.resource

section Entries

variable {entry : Entry}

theorem counter_pos_iff (n : UInt64) : 0 < n ↔ n ≠ 0 := by
  rw [UInt64.lt_iff_toNat_lt,ne_eq,← UInt64.toNat_inj,UInt64.toNat_zero]
  omega

theorem Entry.reopened_counted : (entry.reopened.resourceState = .opened ↔ 0 < entry.reopened.openCounter) ↔ entry.openCounter + 1 ≠ 0 := by
  rw [← counter_pos_iff]
  exact ⟨fun same => same.mp rfl,fun positive => iff_of_true rfl positive⟩

theorem Entry.Kept.reopened (bounded : entry.openCounter + 1 ≠ 0) : entry.reopened.Kept where
  counted := Entry.reopened_counted.mpr bounded
  loaded := fun _ => rfl

theorem Entry.Kept.released (kept : entry.Kept) (isOpen : entry.resourceState = .opened) : entry.released.Kept := by
  rw [Entry.released]
  split
  · exact ⟨iff_of_false (by simp) (by simp),fun opened => absurd opened (by simp)⟩
  · rename_i positive
    exact ⟨iff_of_true isOpen ((counter_pos_iff _).mpr positive),kept.loaded⟩

end Entries

section Calls

variable {database : Database} {xiFsBufferSize : Nat} {resourceHandle : Int}

theorem modify_kept (kept : ∀ entry ∈ database, entry.Kept) {i : Nat} {entry : Entry} (there : database[i]? = some entry)
    {f : Entry → Entry} (changed : (f entry).Kept) : ∀ entry ∈ database.modify i f, entry.Kept := by
  intro other member
  obtain ⟨j,place⟩ := List.mem_iff_getElem?.mp member
  rw [List.getElem?_modify] at place
  obtain ⟨old,was,rfl⟩ := Option.map_eq_some_iff.mp place
  by_cases same : i = j
  · subst same
    obtain rfl := Option.some.inj (there.symm.trans was)
    simpa using changed
  · simpa [same] using kept old (List.mem_of_getElem? was)

theorem at_eq {entry : Entry} (there : database.at resourceHandle = some entry) : database[resourceHandle.toNat]? = some entry := by
  rw [Database.at] at there
  split at there
  · cases there
  · exact there

theorem at_inside (inside : 0 ≤ resourceHandle ∧ resourceHandle < database.length) :
    ∃ entry, database.at resourceHandle = some entry ∧ database[resourceHandle.toNat]? = some entry := by
  have bound : resourceHandle.toNat < database.length := by omega
  refine ⟨database[resourceHandle.toNat],?_,List.getElem?_eq_getElem bound⟩
  rw [Database.at,if_neg (by omega),List.getElem?_eq_getElem bound]

theorem at_outside (outside : resourceHandle < 0 ∨ database.length ≤ resourceHandle) : database.at resourceHandle = none := by
  rw [Database.at]
  split
  · rfl
  · exact List.getElem?_eq_none (by omega)

/-- The checks let through what lies in the table, and two kinds of handles that do not. -/
theorem handle_cases (served : -1 ≤ resourceHandle ∧ resourceHandle ≠ database.length) :
    (resourceHandle = invalidResourceHandle ∨ database.length < resourceHandle) ∨
      (¬ (resourceHandle = invalidResourceHandle ∨ database.length < resourceHandle) ∧
        0 ≤ resourceHandle ∧ resourceHandle < database.length) := by
  simp only [invalidResourceHandle]
  omega

theorem handle_unserved (unserved : ¬ (-1 ≤ resourceHandle ∧ resourceHandle ≠ database.length)) :
    ¬ (resourceHandle = invalidResourceHandle ∨ database.length < resourceHandle) ∧ database.at resourceHandle = none := by
  simp only [invalidResourceHandle]
  exact ⟨by omega,at_outside (by omega)⟩

theorem fsOpen_cases (resourceName : Option (List UInt8)) (openFlags : Nat) (handle : Bool) :
    ((fsOpen database resourceName openFlags handle).2.2 = database ∧ Served database (.open resourceName openFlags handle)) ∨
      ∃ (i : Nat) (entry : Entry), database[i]? = some entry ∧
        (fsOpen database resourceName openFlags handle).2.2 = database.modify i Entry.reopened ∧
        (Served database (.open resourceName openFlags handle) ↔ entry.openCounter + 1 ≠ 0) := by
  cases resourceName with
  | none => exact .inl ⟨rfl,fun name same => absurd same (by simp)⟩
  | some name =>
    by_cases place : handle = true
    · by_cases readOnly : writes openFlags = true
      · refine .inl ⟨by simp [fsOpen,place,readOnly],fun _ _ _ reads => ?_⟩
        rw [readOnly] at reads
        cases reads
      · cases found : database.findIdx? (·.fileName == name) with
        | none =>
          refine .inl ⟨by simp [fsOpen,place,readOnly,found],?_⟩
          rintro _ ⟨⟩ _ _ entry first
          have missing := List.findIdx?_eq_none_iff.mp found entry (List.mem_of_find?_eq_some first)
          have named := List.find?_some first
          rw [missing] at named
          cases named
        | some i =>
          obtain ⟨inside,named,earlier⟩ := List.findIdx?_eq_some_iff_getElem.mp found
          have first : database.find? (·.fileName == name) = some database[i] := by
            rw [List.find?_eq_some_iff_getElem]
            exact ⟨named,i,inside,rfl,fun j below => by simp [earlier j below]⟩
          refine .inr ⟨i,database[i],List.getElem?_eq_getElem inside,by simp [fsOpen,place,readOnly,found],?_⟩
          constructor
          · intro served
            exact served name rfl place (eq_false_of_ne_true readOnly) _ first
          · rintro bounded _ ⟨⟩ _ _ entry again
            rw [first] at again
            cases again
            exact bounded
    · refine .inl ⟨by simp [fsOpen,place],fun _ _ given => absurd given place⟩

/-- A read of an open entry gives the bytes at the offset. -/
theorem read_bytes (entry : Entry) (offset : Nat) :
    (entry.resource.drop (min offset entry.resource.length)).take
        (min (entry.resource.length - min offset entry.resource.length) xiFsBufferSize) =
      (entry.resource.drop offset).take (min (entry.resource.length - offset) xiFsBufferSize) := by
  rcases Nat.le_total offset entry.resource.length with inside | behind
  · rw [Nat.min_eq_left inside]
  · rw [Nat.min_eq_right behind,List.drop_length,List.drop_eq_nil_of_le behind,List.take_nil,List.take_nil]

theorem open_wanted_iff (kept : ∀ entry ∈ database, entry.Kept) (resourceName : Option (List UInt8)) (openFlags : Nat) (handle : Bool) :
    Wanted xiFsBufferSize database (.open resourceName openFlags handle) ↔ Served database (.open resourceName openFlags handle) := by
  rcases @fsOpen_cases database resourceName openFlags handle with ⟨same,served⟩ | ⟨i,entry,there,changed,served⟩
  · refine iff_of_true ?_ served
    rw [Wanted,same]
    exact fun entry member => (kept entry member).counted
  · rw [Wanted,changed,served]
    constructor
    · intro counted
      refine Entry.reopened_counted.mp (counted _ ?_)
      refine List.mem_of_getElem? (i := i) ?_
      rw [List.getElem?_modify_eq,there]
      rfl
    · exact fun bounded entry' member => (modify_kept kept there (.reopened bounded) entry' member).counted

theorem read_wanted_iff (kept : ∀ entry ∈ database, entry.Kept) (resourceHandle : Int) (offset : Nat) (places empty : Bool) :
    Wanted xiFsBufferSize database (.read resourceHandle offset places empty) ↔
      Served database (.read resourceHandle offset places empty) := by
  by_cases served : -1 ≤ resourceHandle ∧ resourceHandle ≠ database.length
  · refine iff_of_true ?_ served
    rw [Wanted,fsRead]
    rcases handle_cases served with refused | ⟨passed,inside⟩
    · rw [if_pos refused]
      exact ⟨_,_,rfl,fun ok => absurd ok (by simp)⟩
    · obtain ⟨entry,there,member⟩ := at_inside inside
      rw [if_neg passed,there,Option.bind_some]
      by_cases isOpen : entry.resourceState = .opened
      · have loaded := (kept entry (List.mem_of_getElem? member)).loaded isOpen
        simp only [isOpen,ne_eq,not_true_eq_false,if_false,loaded,Option.map_some,read_bytes]
        split
        · exact ⟨_,_,rfl,fun ok => absurd ok (by simp)⟩
        · split
          · exact ⟨_,_,rfl,fun ok => absurd ok (by simp)⟩
          · exact ⟨_,_,rfl,fun _ => ⟨entry,⟨there,isOpen⟩,rfl⟩⟩
      · rw [if_pos isOpen]
        exact ⟨_,_,rfl,fun ok => absurd ok (by simp)⟩
  · refine iff_of_false ?_ served
    obtain ⟨passed,missing⟩ := handle_unserved served
    rintro ⟨state,bytes,read,_⟩
    rw [fsRead,if_neg passed,missing] at read
    cases read

theorem close_kept (kept : ∀ entry ∈ database, entry.Kept) {state : XiState} {database' : Database}
    (closed : fsClose database resourceHandle = some (state,database')) : ∀ entry ∈ database', entry.Kept := by
  rw [fsClose] at closed
  split at closed
  · cases closed
    exact kept
  · obtain ⟨entry,there,same⟩ := Option.map_eq_some_iff.mp closed
    split at same
    · cases same
      exact kept
    · rename_i isOpen
      cases same
      have place := at_eq there
      exact modify_kept kept place ((kept entry (List.mem_of_getElem? place)).released (not_not.mp isOpen))

theorem close_wanted_iff (kept : ∀ entry ∈ database, entry.Kept) (resourceHandle : Int) :
    Wanted xiFsBufferSize database (.close resourceHandle) ↔ Served database (.close resourceHandle) := by
  by_cases served : -1 ≤ resourceHandle ∧ resourceHandle ≠ database.length
  · refine iff_of_true ?_ served
    suffices answered : ∃ state database', fsClose database resourceHandle = some (state,database') ∧
        (state = .ok → ∃ entry, Open database resourceHandle entry) ∧ (state ≠ .ok → database' = database) by
      obtain ⟨state,database',closed,promised⟩ := answered
      exact ⟨state,database',closed,fun entry member => (close_kept kept closed entry member).counted,promised⟩
    rw [fsClose]
    rcases handle_cases served with refused | ⟨passed,inside⟩
    · rw [if_pos refused]
      exact ⟨_,_,rfl,fun ok => absurd ok (by simp),fun _ => rfl⟩
    · obtain ⟨entry,there,_⟩ := at_inside inside
      rw [if_neg passed,there,Option.map_some]
      by_cases isOpen : entry.resourceState = .opened
      · rw [if_neg (by simpa using isOpen)]
        exact ⟨_,_,rfl,fun _ => ⟨entry,there,isOpen⟩,fun failed => absurd rfl failed⟩
      · rw [if_pos isOpen]
        exact ⟨_,_,rfl,fun ok => absurd ok (by simp),fun _ => rfl⟩
  · refine iff_of_false ?_ served
    obtain ⟨passed,missing⟩ := handle_unserved served
    rintro ⟨state,database',closed,_⟩
    rw [fsClose,if_neg passed,missing] at closed
    cases closed

/-- In a table that is in order a call keeps its promise exactly where its handle and its counter are inside their ranges. -/
theorem wanted_iff_served (kept : ∀ entry ∈ database, entry.Kept) (call : Call) :
    Wanted xiFsBufferSize database call ↔ Served database call := by
  cases call with
  | «open» resourceName openFlags handle => exact open_wanted_iff kept resourceName openFlags handle
  | read resourceHandle offset places empty => exact read_wanted_iff kept resourceHandle offset places empty
  | close resourceHandle => exact close_wanted_iff kept resourceHandle

theorem next_kept (kept : ∀ entry ∈ database, entry.Kept) {call : Call} (served : Served database call) {database' : Database}
    (stepped : next xiFsBufferSize database call = some database') : ∀ entry ∈ database', entry.Kept := by
  cases call with
  | «open» resourceName openFlags handle =>
    cases stepped
    rcases @fsOpen_cases database resourceName openFlags handle with ⟨same,_⟩ | ⟨i,entry,there,changed,bounded⟩
    · rw [same]
      exact kept
    · rw [changed]
      exact modify_kept kept there (.reopened (bounded.mp served))
  | read resourceHandle offset places empty =>
    obtain ⟨_,_,rfl⟩ := Option.map_eq_some_iff.mp stepped
    exact kept
  | close resourceHandle =>
    obtain ⟨⟨state,database''⟩,closed,rfl⟩ := Option.map_eq_some_iff.mp stepped
    exact close_kept kept closed

end Calls

/-- The table as it is compiled in. -/
def Fresh (database : Database) : Prop := ∀ entry ∈ database, entry.resourceState = .closed ∧ entry.openCounter = 0

instance : DecidablePred Fresh := fun database =>
  inferInstanceAs (Decidable (∀ entry ∈ database, entry.resourceState = .closed ∧ entry.openCounter = 0))

/-- A run keeps all its promises exactly if no handle is below -1 or the size of the table, and no counter overflows. -/
theorem each_fs_iff (xiFsBufferSize : Nat) (database : Database) (fresh : Fresh database) (calls : List Call) :
    (Counted database ∧ Runs.Each (next xiFsBufferSize) (Wanted xiFsBufferSize) database calls) ↔
      Runs.Each (next xiFsBufferSize) Served database calls := by
  have kept : ∀ entry ∈ database, entry.Kept := by
    intro entry member
    obtain ⟨closed,zero⟩ := fresh entry member
    exact ⟨iff_of_false (by simp [closed]) (by simp [zero]),fun opened => absurd opened (by simp [closed])⟩
  have counted : Counted database := fun entry member => (kept entry member).counted
  rw [and_iff_right counted]
  refine Runs.each_iff (I := fun database => ∀ entry ∈ database, entry.Kept) (fun database call kept => wanted_iff_served kept call) ?_ kept
  rintro database call database' kept wanted stepped
  exact next_kept kept ((wanted_iff_served kept call).mp wanted) stepped

/-- One resource, opened, read and closed. -/
theorem each_fs_three : Counted [⟨[97],[1,2,3],none,0,.closed⟩] ∧ Runs.Each (next 2) (Wanted 2) [⟨[97],[1,2,3],none,0,.closed⟩]
    [.open (some [97]) 1 true,.read 0 1 true false,.close 0] := by
  refine (each_fs_iff 2 [⟨[97],[1,2,3],none,0,.closed⟩] (by decide) [.open (some [97]) 1 true,.read 0 1 true false,.close 0]).mpr ⟨?_,?_⟩
  · rintro _ ⟨⟩ _ _ entry found
    cases found
    decide
  · intro database stepped
    cases stepped
    refine ⟨⟨by decide,by decide⟩,fun database stepped => ?_⟩
    cases stepped
    exact ⟨⟨by decide,by decide⟩,fun _ _ => trivial⟩

/-- A handle that is one too large, or below -1, passes the checks. -/
theorem read_indexes_outside : ¬ ∀ (xiFsBufferSize : Nat) (database : Database) (calls : List Call), Fresh database →
    Counted database ∧ Runs.Each (next xiFsBufferSize) (Wanted xiFsBufferSize) database calls := by
  intro claim
  obtain ⟨_,⟨state,bytes,read,_⟩,_⟩ := claim 2 [⟨[97],[1,2,3],none,0,.closed⟩] [.read 1 0 true true] (by decide)
  have outside : fsRead 2 [⟨[97],[1,2,3],none,0,.closed⟩] 1 0 true true = none := by decide
  rw [outside] at read
  cases read

end XivelyClient.FsMemory
