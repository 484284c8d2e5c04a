import XivelyClient.Senml.JsonSerializer
import XivelyClient.Lib.Varargs

/-! The builders of SenML structures and entries (`xi_create_senml_struct`, `xi_add_senml_entry`), which merge any number of partial
ones. A builder has no result when it asks for an argument that is not there. -/
namespace XivelyClient.Senml.Builder

open Varargs

/-- A pointer to a copy, by the number of the copy, or NULL. -/
abbrev Pointer := Option Nat

/-- The copies that are made of the strings of one structure or entry, and those that were freed. -/
structure Memory where
  copies : List CString := []
  freed : List Nat := []

namespace Memory

/-- `xi_str_dup` -/
def strDup (memory : Memory) (granted : Bool) (string : CString) : Pointer × Memory :=
  if granted then (some memory.copies.length,{memory with copies := memory.copies ++ [string]}) else (none,memory)

/-- `XI_SAFE_FREE` -/
def safeFree (memory : Memory) (pointer : Pointer) : Memory := {memory with freed := memory.freed ++ pointer.toList}

/-- There is nothing behind NULL, and nothing behind what is freed. -/
def read (memory : Memory) (pointer : Pointer) : Option CString :=
  pointer.bind fun copy => if copy ∈ memory.freed then none else memory.copies[copy]?

/-- Every copy was freed once, or is held once. -/
def Accounts (memory : Memory) (held : List Nat) : Prop := (memory.freed ++ held).Perm (List.range memory.copies.length)

end Memory

/-- `xi_senml_value_t`, a float by its bits. -/
inductive ValueCnt (S : Type)
  | float (value : UInt32)
  | string (string : S)
  | boolean (value : UInt8)
  | otherType (valueType : UInt32) (value : UInt64)
  deriving DecidableEq

/-- `xi_senml_entry_t`, without its link. What is not set is not there; strings are pointers, or what the pointers of a caller point to. -/
structure EntryOf (S : Type) where
  name : Option S := none
  units : Option S := none
  value : Option (ValueCnt S) := none
  time : Option Int32 := none
  updateTime : Option Int32 := none
  deriving DecidableEq

/-- The base fields of `xi_senml_t`. -/
structure BaseOf (S : Type) where
  baseName : Option S := none
  baseUnits : Option S := none
  baseTime : Option Int32 := none
  deriving DecidableEq

section Map

variable {S T : Type} (f : S → T)

def ValueCnt.map : ValueCnt S → ValueCnt T
  | .float value => .float value
  | .string content => .string (f content)
  | .boolean value => .boolean value
  | .otherType valueType value => .otherType valueType value

def EntryOf.map (entry : EntryOf S) : EntryOf T :=
  ⟨entry.name.map f,entry.units.map f,entry.value.map (·.map f),entry.time,entry.updateTime⟩

def BaseOf.map (base : BaseOf S) : BaseOf T := ⟨base.baseName.map f,base.baseUnits.map f,base.baseTime⟩

end Map

/-- A partial entry, with the answers of the allocator to the copies of its strings. -/
structure EntryIn where
  entry : EntryOf (Option CString)
  name : Bool := true
  units : Bool := true
  value : Bool := true

structure BaseIn where
  base : BaseOf (Option CString)
  baseName : Bool := true
  baseUnits : Bool := true

/-- What a builder works on. -/
structure Built (ρ : Type) where
  record : ρ
  memory : Memory := {}

section Merge

/-- A string that is given replaces the one of the field. -/
def mergeString (granted : Bool) (given : Option (Option CString)) (field : Option Pointer) (memory : Memory) :
    XiState × Option Pointer × Memory :=
  match given with
  | none => (.ok,field,memory)
  | some none => (.invalidParameter,field,memory)
  | some (some string) =>
    let (copy,memory) := (memory.safeFree field.join).strDup granted string
    (.ok,some copy,memory)

/-- The string of a value, if it is one. -/
def ValueCnt.pointer : ValueCnt Pointer → Pointer
  | .string pointer => pointer
  | _ => none

/-- A value that is given replaces the one of the entry before its string is looked at. -/
def mergeValue (granted : Bool) (given : Option (ValueCnt (Option CString))) (field : Option (ValueCnt Pointer)) (memory : Memory) :
    XiState × Option (ValueCnt Pointer) × Memory :=
  match given with
  | none => (.ok,field,memory)
  | some value =>
    let memory := memory.safeFree (field.bind ValueCnt.pointer)
    match value with
    | .string none => (.invalidParameter,some (.string none),memory)
    | .string (some string) =>
      let (copy,memory) := memory.strDup granted string
      (.ok,some (.string copy),memory)
    | .float value => (.ok,some (.float value),memory)
    | .boolean value => (.ok,some (.boolean value),memory)
    | .otherType valueType value => (.ok,some (.otherType valueType value),memory)

/-- One turn of `xi_add_senml_entry`. -/
def mergeEntry (built : Built (EntryOf Pointer)) (given : EntryIn) : XiState × Built (EntryOf Pointer) :=
  let (state,name,memory) := mergeString given.name given.entry.name built.record.name built.memory
  let built := ⟨{built.record with name},memory⟩
  if state ≠ .ok then (state,built)
  else
    let (state,units,memory) := mergeString given.units given.entry.units built.record.units built.memory
    let built := ⟨{built.record with units},memory⟩
    if state ≠ .ok then (state,built)
    else
      let (state,value,memory) := mergeValue given.value given.entry.value built.record.value built.memory
      let built := ⟨{built.record with value},memory⟩
      if state ≠ .ok then (state,built)
      else (.ok,{built with record := {built.record with
        time := given.entry.time.or built.record.time
        updateTime := given.entry.updateTime.or built.record.updateTime}})

/-- One turn of `xi_create_senml_struct`. -/
def mergeBase (built : Built (BaseOf Pointer)) (given : BaseIn) : XiState × Built (BaseOf Pointer) :=
  let (state,baseName,memory) := mergeString given.baseName given.base.baseName built.record.baseName built.memory
  let built := ⟨{built.record with baseName},memory⟩
  if state ≠ .ok then (state,built)
  else
    let (state,baseUnits,memory) := mergeString given.baseUnits given.base.baseUnits built.record.baseUnits built.memory
    let built := ⟨{built.record with baseUnits},memory⟩
    if state ≠ .ok then (state,built)
    else (.ok,{built with record := {built.record with baseTime := given.base.baseTime.or built.record.baseTime}})

/-- `xi_create_senml_struct`: the state, and what the caller's pointer points to. `place` says that there is one, `empty` that it was
NULL. -/
def createSenmlStruct (place empty alloc : Bool) (count : Int32) (args : List BaseIn) :
    Option (XiState × Option (Built (BaseOf Pointer))) :=
  if !place || !empty then some (.invalidParameter,none)
  else if !alloc then some (.outOfMemory,none)
  else (loop .ok mergeBase count.toInt 0 ⟨{},{}⟩ args).map fun (state,built) => (state,some built)

/-- `xi_add_senml_entry` with the list of the entries. -/
def addSenmlEntry (entriesList : List (Built (EntryOf Pointer))) (alloc : Bool) (count : Int32) (args : List EntryIn) :
    Option (XiState × List (Built (EntryOf Pointer))) :=
  if !alloc then some (.outOfMemory,entriesList)
  else (loop .ok mergeEntry count.toInt 0 ⟨{},{}⟩ args).map fun (state,entry) =>
    (state,if state = .ok then entriesList ++ [entry] else entriesList)

end Merge

section Promise

/-- The copies that a record holds. -/
def EntryOf.held (entry : EntryOf Pointer) : List Nat :=
  entry.name.join.toList ++ (entry.units.join.toList ++ (entry.value.bind ValueCnt.pointer).toList)

def BaseOf.held (base : BaseOf Pointer) : List Nat := base.baseName.join.toList ++ base.baseUnits.join.toList

/-- Each field as the last of the entries that set it has it. -/
def EntryOf.last {S : Type} (entries : List (EntryOf S)) : EntryOf S where
  name := lastSet EntryOf.name entries
  units := lastSet EntryOf.units entries
  value := lastSet EntryOf.value entries
  time := lastSet EntryOf.time entries
  updateTime := lastSet EntryOf.updateTime entries

def BaseOf.last {S : Type} (bases : List (BaseOf S)) : BaseOf S where
  baseName := lastSet BaseOf.baseName bases
  baseUnits := lastSet BaseOf.baseUnits bases
  baseTime := lastSet BaseOf.baseTime bases

/-- The fields of the last arguments that set them, in copies of its own; every other copy was freed, once. -/
structure MergedEntry (args : List EntryIn) (entry : Built (EntryOf Pointer)) : Prop where
  fields : entry.record.map entry.memory.read = .last (args.map EntryIn.entry)
  accounts : entry.memory.Accounts entry.record.held

structure MergedBase (args : List BaseIn) (senml : Built (BaseOf Pointer)) : Prop where
  fields : senml.record.map senml.memory.read = .last (args.map BaseIn.base)
  accounts : senml.memory.Accounts senml.record.held

/-- What `xi_add_senml_entry` owes its caller. -/
def AddsEntry (entriesList : List (Built (EntryOf Pointer))) (alloc : Bool) (count : Int32) (args : List EntryIn) : Prop :=
  ∃ state entriesList', addSenmlEntry entriesList alloc count args = some (state,entriesList') ∧
    (state = .ok → ∃ entry, entriesList' = entriesList ++ [entry] ∧ MergedEntry args entry) ∧
    (state ≠ .ok → entriesList' = entriesList)

def CreatesStruct (place empty alloc : Bool) (count : Int32) (args : List BaseIn) : Prop :=
  ∃ state senml, createSenmlStruct place empty alloc count args = some (state,senml) ∧
    (state = .ok → ∃ built, senml = some built ∧ MergedBase args built)

/-- No string is set to NULL. -/
def EntryIn.Valid (given : EntryIn) : Prop :=
  given.entry.name ≠ some none ∧ given.entry.units ≠ some none ∧ given.entry.value ≠ some (.string none)

def BaseIn.Valid (given : BaseIn) : Prop := given.base.baseName ≠ some none ∧ given.base.baseUnits ≠ some none

/-- The last of the arguments that set a field was given the memory that it needs. -/
def LastCopied {α β : Type} (field : α → Option β) (granted : α → Bool) (args : List α) : Prop :=
  ∀ arg, lastSetter field args = some arg → granted arg = true

/-- A value needs memory if it is a string. -/
def EntryIn.valueCopied (given : EntryIn) : Bool :=
  match given.entry.value with
  | some (.string _) => given.value
  | _ => true

/-- The call ends with an error, or the arguments can be counted in a byte and the strings of the result have their memory. -/
def EntryFits (alloc : Bool) (args : List EntryIn) : Prop :=
  alloc = false ∨ (∃ given ∈ args, ¬ given.Valid) ∨
    (args.length ≤ 255 ∧ LastCopied (·.entry.name) EntryIn.name args ∧ LastCopied (·.entry.units) EntryIn.units args ∧
      LastCopied (·.entry.value) EntryIn.valueCopied args)

def StructFits (place empty alloc : Bool) (args : List BaseIn) : Prop :=
  place = false ∨ empty = false ∨ alloc = false ∨ (∃ given ∈ args, ¬ given.Valid) ∨
    (args.length ≤ 255 ∧ LastCopied (·.base.baseName) BaseIn.baseName args ∧ LastCopied (·.base.baseUnits) BaseIn.baseUnits args)

end Promise

section Copies

variable {memory memory' : Memory} {held others : List Nat}

namespace Memory

/-- What a pointer points to, freed or not. -/
def points (memory : Memory) (pointer : Pointer) : Option (Option CString) := pointer.map (memory.copies[·]?)

theorem Accounts.perm (accounts : memory.Accounts held) (same : held.Perm others) : memory.Accounts others :=
  (same.symm.append_left _).trans accounts

/-- What is freed is not held any more. -/
theorem Accounts.safeFree {pointer : Pointer} (accounts : memory.Accounts (pointer.toList ++ others)) :
    (memory.safeFree pointer).Accounts others := by
  rw [Accounts,Memory.safeFree,List.append_assoc]
  exact accounts

theorem Accounts.strDup (accounts : memory.Accounts others) (granted : Bool) (string : CString) :
    (memory.strDup granted string).2.Accounts ((memory.strDup granted string).1.toList ++ others) := by
  rw [Memory.strDup]
  cases granted with
  | false => exact accounts
  | true =>
    change (memory.freed ++ (memory.copies.length :: others)).Perm (List.range (memory.copies ++ [string]).length)
    rw [List.length_append,List.length_singleton,List.range_succ]
    calc memory.freed ++ memory.copies.length :: others
      _ |>.Perm (memory.copies.length :: (memory.freed ++ others)) := List.perm_middle
      _ |>.Perm (memory.copies.length :: List.range memory.copies.length) := accounts.cons _
      _ |>.Perm (List.range memory.copies.length ++ [memory.copies.length]) := (List.perm_append_singleton _ _).symm

theorem strDup_copies (memory : Memory) (granted : Bool) (string : CString) : memory.copies <+: (memory.strDup granted string).2.copies := by
  rw [strDup]
  cases granted with
  | false => exact List.prefix_rfl
  | true => exact List.prefix_append _ _

theorem points_strDup (memory : Memory) (granted : Bool) (string : CString) :
    (memory.strDup granted string).2.points (memory.strDup granted string).1 = (if granted then some string else none).map some := by
  rw [strDup]
  cases granted with
  | false => rfl
  | true =>
    change some ((memory.copies ++ [string])[memory.copies.length]?) = _
    rw [List.getElem?_concat_length]
    rfl

/-- Copies stay what they are. -/
theorem points_mono (more : memory.copies <+: memory'.copies) {pointer : Pointer} {text : Option CString}
    (shows : memory.points pointer = text.map some) : memory'.points pointer = text.map some := by
  cases pointer with
  | none => exact shows
  | some copy =>
    cases text with
    | none => cases shows
    | some string =>
      have found : memory.copies[copy]? = some string := Option.some.inj shows
      obtain ⟨later,more⟩ := more
      obtain ⟨inside,_⟩ := List.getElem?_eq_some_iff.mp found
      change some memory'.copies[copy]? = _
      rw [← more,List.getElem?_append_left inside,found]
      rfl

/-- What is held can be read. -/
theorem Accounts.read (accounts : memory.Accounts held) {pointer : Pointer} {text : Option CString}
    (shows : memory.points pointer = text.map some) (among : ∀ copy ∈ pointer, copy ∈ held) : memory.read pointer = text := by
  cases pointer with
  | none =>
    cases text with
    | none => rfl
    | some string => cases shows
  | some copy =>
    have distinct : (memory.freed ++ held).Nodup := accounts.nodup_iff.mpr List.nodup_range
    have live : copy ∉ memory.freed := fun freed => (List.nodup_append.mp distinct).2.2 _ freed _ (among copy rfl) rfl
    rw [Memory.read,Option.bind_some,if_neg live]
    cases text with
    | none => cases shows
    | some string => exact Option.some.inj shows

end Memory

/-- A field that points to what is wanted. -/
def FieldShows (memory : Memory) (field : Option Pointer) (wanted : Option (Option CString)) : Prop :=
  field.map memory.points = wanted.map (Option.map some)

def ValueShows (memory : Memory) (field : Option (ValueCnt Pointer)) (wanted : Option (ValueCnt (Option CString))) : Prop :=
  field.map (ValueCnt.map memory.points) = wanted.map (ValueCnt.map (Option.map some))

/-- What a string becomes whose copy may be refused its memory. -/
def copied (granted : Bool) (string : Option CString) : Option CString := if granted then string else none

theorem FieldShows.mono (more : memory.copies <+: memory'.copies) {field : Option Pointer} {wanted : Option (Option CString)}
    (shows : FieldShows memory field wanted) : FieldShows memory' field wanted := by
  cases field with
  | none => exact shows
  | some pointer =>
    cases wanted with
    | none => cases shows
    | some text => exact congrArg some (Memory.points_mono more (Option.some.inj shows))

theorem ValueShows.mono (more : memory.copies <+: memory'.copies) {field : Option (ValueCnt Pointer)}
    {wanted : Option (ValueCnt (Option CString))} (shows : ValueShows memory field wanted) : ValueShows memory' field wanted := by
  cases field with
  | none => exact shows
  | some value =>
    cases wanted with
    | none => cases shows
    | some value' =>
      cases value with
      | string pointer =>
        cases value' with
        | string text =>
          have points := ValueCnt.string.inj (Option.some.inj shows)
          exact congrArg (some ∘ ValueCnt.string) (Memory.points_mono more points)
        | _ => cases shows
      | _ => cases value' <;> exact shows

theorem FieldShows.read (accounts : memory.Accounts held) {field : Option Pointer} {wanted : Option (Option CString)}
    (shows : FieldShows memory field wanted) (among : ∀ copy ∈ field.join.toList, copy ∈ held) : field.map memory.read = wanted := by
  cases field with
  | none => cases wanted <;> cases shows; rfl
  | some pointer =>
    cases wanted with
    | none => cases shows
    | some text =>
      exact congrArg some (accounts.read (Option.some.inj shows) fun copy here => among copy (Option.mem_toList.mpr here))

theorem ValueShows.read (accounts : memory.Accounts held) {field : Option (ValueCnt Pointer)}
    {wanted : Option (ValueCnt (Option CString))} (shows : ValueShows memory field wanted)
    (among : ∀ copy ∈ (field.bind ValueCnt.pointer).toList, copy ∈ held) : field.map (ValueCnt.map memory.read) = wanted := by
  cases field with
  | none => cases wanted <;> cases shows; rfl
  | some value =>
    cases wanted with
    | none => cases shows
    | some value' =>
      cases value with
      | string pointer =>
        cases value' with
        | string text =>
          have points := ValueCnt.string.inj (Option.some.inj shows)
          exact congrArg (some ∘ ValueCnt.string) (accounts.read points fun copy here => among copy (Option.mem_toList.mpr here))
        | _ => cases shows
      | _ =>
        cases value' <;> cases shows
        rfl

theorem mergeString_spec (granted : Bool) (given : Option (Option CString)) {field : Option Pointer}
    {wanted : Option (Option CString)} (accounts : memory.Accounts (field.join.toList ++ others))
    (shows : FieldShows memory field wanted) :
    ((mergeString granted given field memory).1 = .ok ↔ given ≠ some none) ∧
      ((mergeString granted given field memory).1 = .ok →
        memory.copies <+: (mergeString granted given field memory).2.2.copies ∧
        (mergeString granted given field memory).2.2.Accounts ((mergeString granted given field memory).2.1.join.toList ++ others) ∧
        FieldShows (mergeString granted given field memory).2.2 (mergeString granted given field memory).2.1
          ((given.map (copied granted)).or wanted)) := by
  match given with
  | none => exact ⟨iff_of_true rfl nofun,fun _ => ⟨List.prefix_rfl,accounts,shows⟩⟩
  | some none => exact ⟨iff_of_false XiState.noConfusion (fun differs => differs rfl),fun error => XiState.noConfusion error⟩
  | some (some string) =>
    refine ⟨iff_of_true rfl nofun,fun _ => ⟨?_,?_,?_⟩⟩
    · exact Memory.strDup_copies (memory.safeFree field.join) granted string
    · exact accounts.safeFree.strDup granted string
    · exact congrArg some (Memory.points_strDup (memory.safeFree field.join) granted string)

theorem mergeValue_spec (granted : Bool) (given : Option (ValueCnt (Option CString))) {field : Option (ValueCnt Pointer)}
    {wanted : Option (ValueCnt (Option CString))} (accounts : memory.Accounts ((field.bind ValueCnt.pointer).toList ++ others))
    (shows : ValueShows memory field wanted) :
    ((mergeValue granted given field memory).1 = .ok ↔ given ≠ some (.string none)) ∧
      ((mergeValue granted given field memory).1 = .ok →
        memory.copies <+: (mergeValue granted given field memory).2.2.copies ∧
        (mergeValue granted given field memory).2.2.Accounts
          (((mergeValue granted given field memory).2.1.bind ValueCnt.pointer).toList ++ others) ∧
        ValueShows (mergeValue granted given field memory).2.2 (mergeValue granted given field memory).2.1
          ((given.map (ValueCnt.map (copied granted))).or wanted)) := by
  match given with
  | none => exact ⟨iff_of_true rfl nofun,fun _ => ⟨List.prefix_rfl,accounts,shows⟩⟩
  | some (.string none) => exact ⟨iff_of_false XiState.noConfusion (fun differs => differs rfl),fun error => XiState.noConfusion error⟩
  | some (.string (some string)) =>
    refine ⟨iff_of_true rfl nofun,fun _ => ⟨?_,?_,?_⟩⟩
    · exact Memory.strDup_copies (memory.safeFree (field.bind ValueCnt.pointer)) granted string
    · exact accounts.safeFree.strDup granted string
    · exact congrArg (some ∘ ValueCnt.string)
        (Memory.points_strDup (memory.safeFree (field.bind ValueCnt.pointer)) granted string)
  | some (.float value) => exact ⟨iff_of_true rfl nofun,fun _ => ⟨List.prefix_rfl,accounts.safeFree,rfl⟩⟩
  | some (.boolean value) => exact ⟨iff_of_true rfl nofun,fun _ => ⟨List.prefix_rfl,accounts.safeFree,rfl⟩⟩
  | some (.otherType valueType value) => exact ⟨iff_of_true rfl nofun,fun _ => ⟨List.prefix_rfl,accounts.safeFree,rfl⟩⟩

/-- What a stage and the rest of a merge do together, which ends where the stage has failed. -/
theorem stage_spec {ρ : Type} {state : XiState} {stopped : ρ} {rest : XiState × ρ} {valid validRest : Prop} {made : ρ → Prop}
    (first : state = .ok ↔ valid) (next : state = .ok → (rest.1 = .ok ↔ validRest) ∧ (rest.1 = .ok → made rest.2)) :
    ((if state ≠ .ok then (state,stopped) else rest).1 = .ok ↔ valid ∧ validRest) ∧
      ((if state ≠ .ok then (state,stopped) else rest).1 = .ok → made (if state ≠ .ok then (state,stopped) else rest).2) := by
  by_cases done : state = .ok
  · obtain ⟨same,kept⟩ := next done
    rw [if_neg (not_not.mpr done)]
    exact ⟨same.trans ⟨fun rest => ⟨first.mp done,rest⟩,And.right⟩,kept⟩
  · rw [if_pos done]
    exact ⟨iff_of_false done fun all => done (first.mpr all.1),fun ok => absurd ok done⟩

end Copies

section Entries

/-- What an entry is merged into, field by field. -/
def EntryOf.or {S : Type} (entry earlier : EntryOf S) : EntryOf S :=
  ⟨entry.name.or earlier.name,entry.units.or earlier.units,entry.value.or earlier.value,entry.time.or earlier.time,
    entry.updateTime.or earlier.updateTime⟩

theorem EntryOf.last_concat {S : Type} (entries : List (EntryOf S)) (entry : EntryOf S) :
    last (entries ++ [entry]) = entry.or (last entries) := by
  simp only [last,EntryOf.or,lastSet_concat]

/-- What becomes of a partial entry with the memory that there is. -/
def EntryIn.copied (given : EntryIn) : EntryOf (Option CString) :=
  ⟨given.entry.name.map (Builder.copied given.name),given.entry.units.map (Builder.copied given.units),
    given.entry.value.map (ValueCnt.map (Builder.copied given.value)),given.entry.time,given.entry.updateTime⟩

theorem copied_iff {granted : Bool} {string : Option CString} (there : string ≠ none) :
    Builder.copied granted string = string ↔ granted = true := by
  cases granted with
  | false => exact iff_of_false (fun same => there same.symm) Bool.false_ne_true
  | true => exact iff_of_true rfl rfl

theorem valueCopied_iff {given : EntryIn} {value : ValueCnt (Option CString)} (set : given.entry.value = some value)
    (valid : given.entry.value ≠ some (.string none)) :
    value.map (Builder.copied given.value) = value ↔ given.valueCopied = true := by
  rw [EntryIn.valueCopied,set]
  cases value with
  | string string =>
    rw [ValueCnt.map,ValueCnt.string.injEq]
    exact copied_iff fun null => valid (null ▸ set)
  | _ => exact iff_of_true rfl rfl

structure EntryShows (memory : Memory) (entry : EntryOf Pointer) (wanted : EntryOf (Option CString)) : Prop where
  name : FieldShows memory entry.name wanted.name
  units : FieldShows memory entry.units wanted.units
  value : ValueShows memory entry.value wanted.value
  time : entry.time = wanted.time
  updateTime : entry.updateTime = wanted.updateTime

/-- An entry in its memory. -/
structure EntryHolds (wanted : EntryOf (Option CString)) (built : Built (EntryOf Pointer)) : Prop where
  accounts : built.memory.Accounts built.record.held
  shows : EntryShows built.memory built.record wanted

/-- The copies held by three fields, in another order. -/
theorem held_rotate (a b c : List Nat) : (a ++ (b ++ c)).Perm (b ++ (c ++ a)) := by
  rw [← List.append_assoc b]
  exact List.perm_append_comm

theorem mergeEntry_spec {built : Built (EntryOf Pointer)} {wanted : EntryOf (Option CString)} (given : EntryIn)
    (holds : EntryHolds wanted built) :
    ((mergeEntry built given).1 = .ok ↔ given.Valid) ∧
      ((mergeEntry built given).1 = .ok → EntryHolds (given.copied.or wanted) (mergeEntry built given).2) := by
  obtain ⟨accounts,shows⟩ := holds
  rw [mergeEntry,EntryIn.Valid]
  obtain ⟨valid,named⟩ := mergeString_spec given.name given.entry.name accounts shows.name
  generalize mergeString given.name given.entry.name built.record.name built.memory = merged at valid named
  obtain ⟨state,name,memory⟩ := merged
  simp only
  refine stage_spec valid fun done => ?_
  obtain ⟨more,accounts,name⟩ := named done
  obtain ⟨valid,unitsMerged⟩ := mergeString_spec given.units given.entry.units (accounts.perm (held_rotate _ _ _))
    (shows.units.mono more)
  generalize mergeString given.units given.entry.units built.record.units memory = merged at valid unitsMerged
  obtain ⟨state',units,memory'⟩ := merged
  simp only
  refine stage_spec valid fun done => ?_
  obtain ⟨more',accounts,units⟩ := unitsMerged done
  obtain ⟨valid,valueMerged⟩ := mergeValue_spec given.value given.entry.value (accounts.perm (held_rotate _ _ _))
    (shows.value.mono (more.trans more'))
  generalize mergeValue given.value given.entry.value built.record.value memory' = merged at valid valueMerged
  obtain ⟨state'',value,memory''⟩ := merged
  rw [← and_true (given.entry.value ≠ _)]
  simp only
  refine stage_spec valid fun done => ⟨iff_of_true rfl trivial,fun _ => ?_⟩
  obtain ⟨more'',accounts,value⟩ := valueMerged done
  refine ⟨accounts.perm (held_rotate _ _ _),name.mono (more'.trans more''),units.mono more'',value,?_,?_⟩
  · exact congrArg (given.entry.time.or ·) shows.time
  · exact congrArg (given.entry.updateTime.or ·) shows.updateTime

theorem EntryShows.read {entry : EntryOf Pointer} {wanted : EntryOf (Option CString)} (accounts : memory.Accounts entry.held)
    (shows : EntryShows memory entry wanted) : entry.map memory.read = wanted := by
  have name := shows.name.read accounts fun copy here => List.mem_append_left _ here
  have units := shows.units.read accounts fun copy here => List.mem_append_right _ (List.mem_append_left _ here)
  have value := shows.value.read accounts fun copy here => List.mem_append_right _ (List.mem_append_right _ here)
  rw [EntryOf.map,name,units,value,shows.time,shows.updateTime]

/-- What the partial entries come to, as far as their strings have their memory. -/
theorem through_mergeEntry (args : List EntryIn) :
    ((through .ok mergeEntry ⟨{},{}⟩ args).1 = .ok ↔ ∀ given ∈ args, given.Valid) ∧
      ((through .ok mergeEntry ⟨{},{}⟩ args).1 = .ok →
        EntryHolds (.last (args.map EntryIn.copied)) (through .ok mergeEntry ⟨{},{}⟩ args).2) := by
  have step (done : List EntryIn) (built : Built (EntryOf Pointer)) (given : EntryIn)
      (holds : EntryHolds (.last (done.map EntryIn.copied)) built) :
      ((mergeEntry built given).1 = .ok ↔ given.Valid) ∧
        ((mergeEntry built given).1 = .ok → EntryHolds (.last ((done ++ [given]).map EntryIn.copied)) (mergeEntry built given).2) := by
    rw [List.map_append,List.map_singleton,EntryOf.last_concat]
    exact mergeEntry_spec given holds
  exact through_of_step [] step ⟨List.Perm.refl _,⟨rfl,rfl,rfl,rfl,rfl⟩⟩

theorem last_copied_iff {args : List EntryIn} (valid : ∀ given ∈ args, given.Valid) :
    EntryOf.last (args.map EntryIn.copied) = .last (args.map EntryIn.entry) ↔
      LastCopied (·.entry.name) EntryIn.name args ∧ LastCopied (·.entry.units) EntryIn.units args ∧
        LastCopied (·.entry.value) EntryIn.valueCopied args := by
  have name := lastSet_map_iff (fun given : EntryIn => given.entry.name) (fun given => Builder.copied given.name)
    (fun given => given.name = true) fun given member string set => copied_iff fun null => (valid given member).1 (null ▸ set)
  have units := lastSet_map_iff (fun given : EntryIn => given.entry.units) (fun given => Builder.copied given.units)
    (fun given => given.units = true) fun given member string set =>
      copied_iff fun null => (valid given member).2.1 (null ▸ set)
  have value := lastSet_map_iff (fun given : EntryIn => given.entry.value)
    (fun given => ValueCnt.map (Builder.copied given.value)) (fun given => given.valueCopied = true)
    fun given member value set => valueCopied_iff set (valid given member).2.2
  rw [← LastCopied] at name units value
  rw [← name,← units,← value]
  simp only [EntryOf.last,lastSet_map,EntryOf.mk.injEq,EntryIn.copied,and_true]

end Entries

section Bases

def BaseOf.or {S : Type} (base earlier : BaseOf S) : BaseOf S :=
  ⟨base.baseName.or earlier.baseName,base.baseUnits.or earlier.baseUnits,base.baseTime.or earlier.baseTime⟩

theorem BaseOf.last_concat {S : Type} (bases : List (BaseOf S)) (base : BaseOf S) :
    last (bases ++ [base]) = base.or (last bases) := by
  simp only [last,BaseOf.or,lastSet_concat]

def BaseIn.copied (given : BaseIn) : BaseOf (Option CString) :=
  ⟨given.base.baseName.map (Builder.copied given.baseName),given.base.baseUnits.map (Builder.copied given.baseUnits),
    given.base.baseTime⟩

structure BaseShows (memory : Memory) (base : BaseOf Pointer) (wanted : BaseOf (Option CString)) : Prop where
  baseName : FieldShows memory base.baseName wanted.baseName
  baseUnits : FieldShows memory base.baseUnits wanted.baseUnits
  baseTime : base.baseTime = wanted.baseTime

structure BaseHolds (wanted : BaseOf (Option CString)) (built : Built (BaseOf Pointer)) : Prop where
  accounts : built.memory.Accounts built.record.held
  shows : BaseShows built.memory built.record wanted

theorem mergeBase_spec {built : Built (BaseOf Pointer)} {wanted : BaseOf (Option CString)} (given : BaseIn)
    (holds : BaseHolds wanted built) :
    ((mergeBase built given).1 = .ok ↔ given.Valid) ∧
      ((mergeBase built given).1 = .ok → BaseHolds (given.copied.or wanted) (mergeBase built given).2) := by
  obtain ⟨accounts,shows⟩ := holds
  rw [mergeBase,BaseIn.Valid]
  obtain ⟨valid,named⟩ := mergeString_spec given.baseName given.base.baseName accounts shows.baseName
  generalize mergeString given.baseName given.base.baseName built.record.baseName built.memory = merged at valid named
  obtain ⟨state,baseName,memory⟩ := merged
  simp only
  refine stage_spec valid fun done => ?_
  obtain ⟨more,accounts,baseName⟩ := named done
  obtain ⟨valid,unitsMerged⟩ := mergeString_spec given.baseUnits given.base.baseUnits (accounts.perm List.perm_append_comm)
    (shows.baseUnits.mono more)
  generalize mergeString given.baseUnits given.base.baseUnits built.record.baseUnits memory = merged at valid unitsMerged
  obtain ⟨state',baseUnits,memory'⟩ := merged
  rw [← and_true (given.base.baseUnits ≠ _)]
  simp only
  refine stage_spec valid fun done => ⟨iff_of_true rfl trivial,fun _ => ?_⟩
  obtain ⟨more',accounts,baseUnits⟩ := unitsMerged done
  refine ⟨accounts.perm List.perm_append_comm,baseName.mono more',baseUnits,?_⟩
  exact congrArg (given.base.baseTime.or ·) shows.baseTime

theorem BaseShows.read {base : BaseOf Pointer} {wanted : BaseOf (Option CString)} (accounts : memory.Accounts base.held)
    (shows : BaseShows memory base wanted) : base.map memory.read = wanted := by
  have baseName := shows.baseName.read accounts fun copy here => List.mem_append_left _ here
  have baseUnits := shows.baseUnits.read accounts fun copy here => List.mem_append_right _ here
  rw [BaseOf.map,baseName,baseUnits,shows.baseTime]

theorem through_mergeBase (args : List BaseIn) :
    ((through .ok mergeBase ⟨{},{}⟩ args).1 = .ok ↔ ∀ given ∈ args, given.Valid) ∧
      ((through .ok mergeBase ⟨{},{}⟩ args).1 = .ok →
        BaseHolds (.last (args.map BaseIn.copied)) (through .ok mergeBase ⟨{},{}⟩ args).2) := by
  have step (done : List BaseIn) (built : Built (BaseOf Pointer)) (given : BaseIn)
      (holds : BaseHolds (.last (done.map BaseIn.copied)) built) :
      ((mergeBase built given).1 = .ok ↔ given.Valid) ∧
        ((mergeBase built given).1 = .ok → BaseHolds (.last ((done ++ [given]).map BaseIn.copied)) (mergeBase built given).2) := by
    rw [List.map_append,List.map_singleton,BaseOf.last_concat]
    exact mergeBase_spec given holds
  exact through_of_step [] step ⟨List.Perm.refl _,⟨rfl,rfl,rfl⟩⟩

theorem last_copied_base_iff {args : List BaseIn} (valid : ∀ given ∈ args, given.Valid) :
    BaseOf.last (args.map BaseIn.copied) = .last (args.map BaseIn.base) ↔
      LastCopied (·.base.baseName) BaseIn.baseName args ∧ LastCopied (·.base.baseUnits) BaseIn.baseUnits args := by
  have baseName := lastSet_map_iff (fun given : BaseIn => given.base.baseName)
    (fun given => Builder.copied given.baseName) (fun given => given.baseName = true)
    fun given member string set => copied_iff fun null => (valid given member).1 (null ▸ set)
  have baseUnits := lastSet_map_iff (fun given : BaseIn => given.base.baseUnits)
    (fun given => Builder.copied given.baseUnits) (fun given => given.baseUnits = true)
    fun given member string set => copied_iff fun null => (valid given member).2 (null ▸ set)
  rw [← LastCopied] at baseName baseUnits
  rw [← baseName,← baseUnits]
  simp only [BaseOf.last,lastSet_map,BaseOf.mk.injEq,BaseIn.copied,and_true]

end Bases

section Results

variable {count : Int32}

theorem mergedEntry_iff {args : List EntryIn} (valid : ∀ given ∈ args, given.Valid) :
    MergedEntry args (through .ok mergeEntry ⟨{},{}⟩ args).2 ↔
      LastCopied (·.entry.name) EntryIn.name args ∧ LastCopied (·.entry.units) EntryIn.units args ∧
        LastCopied (·.entry.value) EntryIn.valueCopied args := by
  obtain ⟨same,made⟩ := through_mergeEntry args
  obtain ⟨accounts,shows⟩ := made (same.mpr valid)
  rw [← last_copied_iff valid,← shows.read accounts]
  exact ⟨MergedEntry.fields,fun fields => ⟨fields,accounts⟩⟩

theorem mergedBase_iff {args : List BaseIn} (valid : ∀ given ∈ args, given.Valid) :
    MergedBase args (through .ok mergeBase ⟨{},{}⟩ args).2 ↔
      LastCopied (·.base.baseName) BaseIn.baseName args ∧ LastCopied (·.base.baseUnits) BaseIn.baseUnits args := by
  obtain ⟨same,made⟩ := through_mergeBase args
  obtain ⟨accounts,shows⟩ := made (same.mpr valid)
  rw [← last_copied_base_iff valid,← shows.read accounts]
  exact ⟨MergedBase.fields,fun fields => ⟨fields,accounts⟩⟩

/-- What the loop owes is what the builder owes, since the list grows only if all went well. -/
theorem addsEntry_iff_loop {entriesList : List (Built (EntryOf Pointer))} {args : List EntryIn} :
    AddsEntry entriesList true count args ↔
      ∃ result, loop .ok mergeEntry count.toInt 0 ⟨{},{}⟩ args = some result ∧ (result.1 = .ok → MergedEntry args result.2) := by
  constructor
  · rintro ⟨state,entriesList',ends,ok,_⟩
    obtain ⟨⟨state',entry⟩,ends,same⟩ := Option.map_eq_some_iff.mp ends
    refine ⟨_,ends,fun (done : state' = .ok) => ?_⟩
    cases same
    obtain ⟨entry',same,merged⟩ := ok done
    rw [if_pos done] at same
    cases List.append_cancel_left same
    exact merged
  · rintro ⟨⟨state,entry⟩,ends,merged⟩
    refine ⟨state,_,Option.map_eq_some_iff.mpr ⟨_,ends,rfl⟩,fun done => ?_,fun failed => if_neg failed⟩
    exact ⟨entry,if_pos done,merged done⟩

theorem createsStruct_iff_loop {args : List BaseIn} :
    CreatesStruct true true true count args ↔
      ∃ result, loop .ok mergeBase count.toInt 0 ⟨{},{}⟩ args = some result ∧ (result.1 = .ok → MergedBase args result.2) := by
  constructor
  · rintro ⟨state,senml,ends,ok⟩
    obtain ⟨⟨state',built⟩,ends,same⟩ := Option.map_eq_some_iff.mp ends
    refine ⟨_,ends,fun (done : state' = .ok) => ?_⟩
    cases same
    obtain ⟨_,⟨⟩,merged⟩ := ok done
    exact merged
  · rintro ⟨⟨state,built⟩,ends,merged⟩
    exact ⟨state,_,Option.map_eq_some_iff.mpr ⟨_,ends,rfl⟩,fun done => ⟨built,rfl,merged done⟩⟩

theorem addsEntry_iff {entriesList : List (Built (EntryOf Pointer))} {alloc : Bool} {args : List EntryIn}
    (counted : count.toInt = args.length) : AddsEntry entriesList alloc count args ↔ EntryFits alloc args := by
  cases alloc with
  | false => exact iff_of_true ⟨.outOfMemory,entriesList,rfl,XiState.noConfusion,fun _ => rfl⟩ (.inl rfl)
  | true =>
    rw [addsEntry_iff_loop,loop_keeps_iff counted,EntryFits,or_iff_right Bool.true_eq_false.mp]
    by_cases valid : ∀ given ∈ args, given.Valid
    · rw [mergedEntry_iff valid,or_iff_right (not_not.mpr ((through_mergeEntry args).1.mpr valid)),or_iff_right]
      rintro ⟨given,member,bad⟩
      exact bad (valid given member)
    · refine iff_of_true (.inl (valid ∘ (through_mergeEntry args).1.mp)) (.inl ?_)
      simpa only [not_forall,exists_prop] using valid

theorem createsStruct_iff {place empty alloc : Bool} {args : List BaseIn} (counted : count.toInt = args.length) :
    CreatesStruct place empty alloc count args ↔ StructFits place empty alloc args := by
  cases place with
  | false => exact iff_of_true ⟨.invalidParameter,none,rfl,XiState.noConfusion⟩ (.inl rfl)
  | true =>
    cases empty with
    | false => exact iff_of_true ⟨.invalidParameter,none,rfl,XiState.noConfusion⟩ (.inr (.inl rfl))
    | true =>
      cases alloc with
      | false => exact iff_of_true ⟨.outOfMemory,none,rfl,XiState.noConfusion⟩ (.inr (.inr (.inl rfl)))
      | true =>
        rw [createsStruct_iff_loop,loop_keeps_iff counted,StructFits,or_iff_right Bool.true_eq_false.mp,
          or_iff_right Bool.true_eq_false.mp,or_iff_right Bool.true_eq_false.mp]
        by_cases valid : ∀ given ∈ args, given.Valid
        · rw [mergedBase_iff valid,or_iff_right (not_not.mpr ((through_mergeBase args).1.mpr valid)),or_iff_right]
          rintro ⟨given,member,bad⟩
          exact bad (valid given member)
        · refine iff_of_true (.inl (valid ∘ (through_mergeBase args).1.mp)) (.inl ?_)
          simpa only [not_forall,exists_prop] using valid

/-- Partial structures and entries are merged field by field, the last that sets a field having its way, as long as they can be counted in
a byte and the strings that stay have their memory. -/
theorem builders_merge_iff (place empty alloc : Bool) (count : Int32) (bases : List BaseIn)
    (entriesList : List (Built (EntryOf Pointer))) (entries : List EntryIn) :
    (count.toInt = bases.length → (CreatesStruct place empty alloc count bases ↔ StructFits place empty alloc bases)) ∧
      (count.toInt = entries.length → (AddsEntry entriesList alloc count entries ↔ EntryFits alloc entries)) :=
  ⟨createsStruct_iff,addsEntry_iff⟩

/-- The name and the value of the second entry replace those of the first. -/
theorem builders_merge_two :
    CreatesStruct true true true 1 [{base := {baseName := some (some ⟨[0x64],by decide⟩),baseTime := some 7}}] ∧
      AddsEntry [] true 2
        [{entry := {name := some (some ⟨[0x61],by decide⟩),value := some (.string (some ⟨[0x78],by decide⟩))},name := false},
          {entry := {name := some (some ⟨[0x62],by decide⟩),value := some (.float 0x3f800000)}}] := by
  constructor
  · refine ((builders_merge_iff true true true 1 _ [] []).1 (by decide)).mpr (.inr (.inr (.inr (.inr ⟨by decide,?_,?_⟩))))
    · rintro _ ⟨⟩
      rfl
    · rintro _ ⟨⟩
  · refine ((builders_merge_iff true true true 2 [] [] _).2 (by decide)).mpr (.inr (.inr ⟨by decide,?_,?_,?_⟩))
    · rintro _ ⟨⟩
      rfl
    · rintro _ ⟨⟩
    · rintro _ ⟨⟩
      rfl

/-- A copy that is refused its memory leaves a name that is set to NULL; and no byte reaches 256. -/
theorem builders_merge_fails :
    ¬AddsEntry [] true 1 [{entry := {name := some (some ⟨[0x61],by decide⟩)},name := false}] ∧
      ¬AddsEntry [] true 256 (List.replicate 256 {entry := {}}) := by
  constructor
  · rintro ⟨_,_,⟨⟩,ok,_⟩
    obtain ⟨_,⟨⟩,merged⟩ := ok rfl
    cases merged.fields
  · intro adds
    have counted : (256 : Int32).toInt = ((List.replicate 256 {entry := {}} : List EntryIn).length : Int) := by
      rw [List.length_replicate]
      decide
    rcases (addsEntry_iff counted).mp adds with failed | ⟨given,member,bad⟩ | ⟨few,_⟩
    · cases failed
    · rw [List.eq_of_mem_replicate member] at bad
      exact bad ⟨nofun,nofun,nofun⟩
    · rw [List.length_replicate] at few
      omega

end Results

end XivelyClient.Senml.Builder
