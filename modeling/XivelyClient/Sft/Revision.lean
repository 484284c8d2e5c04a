import Mathlib.Data.List.TakeDrop
import XivelyClient.Lib.Runs
import XivelyClient.State
import XivelyClient.Sft.Logic

/-! Revisions of files in files of their own (`xi_sft_revision.c`), over a file system that keeps what is written, cuts a file when it
is opened for writing, and reads a file in one piece. -/
namespace XivelyClient.Sft.Revision

abbrev Files := Name → Option (List UInt8)

/-- What the file system answers to a write, and how many bytes it has stored. -/
structure Write where
  opens : XiState := .ok
  count : Nat
  writes : XiState := .ok

/-- What it answers to a read of a file that exists, and whether there is memory for the copy. -/
structure Read where
  opens : XiState := .ok
  reads : XiState := .ok
  alloc : Bool := true

/-- The number of bytes that were written is not asked for. -/
def writeStringToFile (files : Files) (resourceName : Option Name) (string : Name) (write : Write) : XiState × Files :=
  match resourceName with
  | none => (.invalidParameter,files)
  | some resourceName =>
    if write.opens = .ok then (write.writes,Function.update files resourceName (some (string.take write.count)))
    else (write.opens,files)

/-- A copy with a zero behind, which ends at its first zero. -/
def readStringFromFile (files : Files) (resourceName : Name) (read : Read) : XiState × Option Name :=
  match files resourceName with
  | none => (.fsOpenError,none)
  | some bytes =>
    if read.opens = .ok then
      if read.reads = .ok then
        if read.alloc then (.ok,some (bytes.takeWhile (· ≠ 0))) else (.outOfMemory,none)
      else (read.reads,none)
    else (read.opens,none)

/-- `xi_sft_revision_set`, with memory for the name of the file or not -/
def set (files : Files) (resourceName revision : Name) (alloc : Bool) (write : Write) : XiState × Files :=
  writeStringToFile files (if alloc then some (resourceName ++ Context.revisionSuffix) else none) revision write

/-- `xi_sft_revision_get`, with memory for the name of the file -/
def get (files : Files) (resourceName : Name) (read : Read) : XiState × Option Name :=
  readStringFromFile files (resourceName ++ Context.revisionSuffix) read

/-- The name, a newline and the revision. -/
def mail (name revision : Name) : Name := name ++ [10] ++ revision

/-- Whatever happens the state is `XI_STATE_OK`. -/
def setFirmwareUpdate (files : Files) (name revision : Name) (alloc : Bool) (write : Write) : XiState × Files :=
  (.ok,if alloc then (writeStringToFile files (some Context.revisionMailbox) (mail name revision) write).2 else files)

/-- What one call of `xi_sft_revision_firmware_ok` meets. -/
structure Attempt where
  read : Read := {}
  alloc : Bool := true
  write : Write
  removes : Bool := true

/-- The name and the revision of a mail that has a newline. -/
def split (data : Name) : Option (Name × Name) :=
  match data.dropWhile (· ≠ 10) with
  | _ :: revision => some (data.takeWhile (· ≠ 10),revision)
  | [] => none

/-- The mailbox is removed whether or not the revision was stored. -/
def firmwareOk (files : Files) (attempt : Attempt) : XiState × Files :=
  match readStringFromFile files Context.revisionMailbox attempt.read with
  | (state,none) => (state,files)
  | (state,some data) =>
    let stored := match split data with
      | some (name,revision) => (set files name revision attempt.alloc attempt.write).2
      | none => files
    (state,if attempt.removes then Function.update stored Context.revisionMailbox none else stored)

/-- A revision of a firmware. A name has no newline, and no string has a zero inside. -/
structure Firmware where
  name : Name
  revision : Name
  noNewline : 10 ∉ name
  noZero : 0 ∉ mail name revision

/-- The files, and the update of each firmware that was accepted last. -/
structure Store where
  files : Files
  accepted : Name → Option Firmware := fun _ => none

def Store.Due (store : Store) (firmware : Firmware) : Prop := store.accepted firmware.name = some firmware

inductive Event
  | setFirmwareUpdate (firmware : Firmware) (alloc : Bool) (write : Write)
  | firmwareOk (attempt : Attempt)

def next (store : Store) : Event → Option Store
  | .setFirmwareUpdate firmware alloc write =>
    match setFirmwareUpdate store.files firmware.name firmware.revision alloc write with
    | (state,files) =>
      some ⟨files,if state = .ok then Function.update store.accepted firmware.name (some firmware) else store.accepted⟩
  | .firmwareOk attempt => some {store with files := (firmwareOk store.files attempt).2}

/-- The mailbox holds the mail, so that a later start can deliver it. -/
def Mailed (name revision : Name) (files : Files) : Prop := files Context.revisionMailbox = some (mail name revision)

def Stored (name revision : Name) (files : Files) : Prop := get files name {} = (.ok,some revision)

/-- The revision can still be delivered, or it has been. -/
def Safe (firmware : Firmware) (files : Files) : Prop :=
  Mailed firmware.name firmware.revision files ∨ Stored firmware.name firmware.revision files

/-- What a call that returns `XI_STATE_OK` promises, and that no revision of an accepted update is lost. -/
def Wanted (store : Store) : Event → Prop
  | .setFirmwareUpdate firmware alloc write =>
    ((setFirmwareUpdate store.files firmware.name firmware.revision alloc write).1 = .ok → Mailed firmware.name firmware.revision
      (setFirmwareUpdate store.files firmware.name firmware.revision alloc write).2) ∧
    ∀ other, store.Due other → other.name ≠ firmware.name →
      Safe other (setFirmwareUpdate store.files firmware.name firmware.revision alloc write).2
  | .firmwareOk attempt =>
    ((firmwareOk store.files attempt).1 = .ok → ∀ firmware, store.Due firmware →
      Stored firmware.name firmware.revision (firmwareOk store.files attempt).2) ∧
    ∀ firmware, store.Due firmware → Safe firmware (firmwareOk store.files attempt).2

/-- A write that stores the whole string. -/
def Write.Whole (write : Write) (string : Name) : Prop := write.opens = .ok ∧ string.length ≤ write.count

/-- The read of a file gives its content. -/
def Read.Gives (read : Read) : Prop := read.opens = .ok ∧ read.reads = .ok ∧ read.alloc = true

/-- A mail is written in full, or one that is there already is not touched, and the updates of all other firmware have been delivered.
A mail that is read is delivered in full, or not at all where its revision is stored already. -/
def Delivered (store : Store) : Event → Prop
  | .setFirmwareUpdate firmware alloc write =>
    (if alloc = true ∧ write.opens = .ok then write.Whole (mail firmware.name firmware.revision)
      else Mailed firmware.name firmware.revision store.files) ∧
    ∀ other, store.Due other → other.name ≠ firmware.name → Stored other.name other.revision store.files
  | .firmwareOk attempt => ∀ firmware, store.Due firmware → Mailed firmware.name firmware.revision store.files → attempt.read.Gives →
      if attempt.alloc = true ∧ attempt.write.opens = .ok then attempt.write.Whole firmware.revision
      else Stored firmware.name firmware.revision store.files

section Strings

variable {name revision : Name} {files : Files}

theorem mailbox_ne (name : Name) : Context.revisionMailbox ≠ name ++ Context.revisionSuffix := by
  intro same
  have ends := congrArg List.getLast? same
  simp [Context.revisionMailbox,Context.revisionSuffix] at ends

theorem takeWhile_eq_self {p : UInt8 → Bool} {list : List UInt8} (all : ∀ x ∈ list, p x = true) : list.takeWhile p = list := by
  have whole := @List.takeWhile_append_of_pos _ p list [] all
  simpa using whole

/-- The mail is read and split as it was put together. -/
theorem split_mail (noNewline : 10 ∉ name) : split (mail name revision) = some (name,revision) := by
  have all : ∀ x ∈ name, (decide (x ≠ 10)) = true := by
    intro x member
    simp only [decide_eq_true_eq]
    rintro rfl
    exact noNewline member
  rw [split,mail,List.append_assoc]
  rw [List.dropWhile_append_of_pos all,List.takeWhile_append_of_pos all]
  simp

theorem mail_inj {other own : Name} (noNewline : 10 ∉ name) (noNewline' : 10 ∉ other) (same : mail name revision = mail other own) :
    name = other := by
  have both := congrArg split same
  rw [split_mail noNewline,split_mail noNewline'] at both
  exact congrArg Prod.fst (Option.some.inj both)

theorem stored_iff : Stored name revision files ↔
    ∃ bytes, files (name ++ Context.revisionSuffix) = some bytes ∧ bytes.takeWhile (· ≠ 0) = revision := by
  rw [Stored,get,readStringFromFile]
  cases files (name ++ Context.revisionSuffix) <;> simp

/-- A revision that has been written as far as `count`. -/
theorem stored_update (noZero : 0 ∉ revision) (count : Nat) :
    Stored name revision (Function.update files (name ++ Context.revisionSuffix) (some (revision.take count))) ↔ revision.length ≤ count := by
  rw [stored_iff,← List.take_eq_self_iff revision,Function.update_self]
  have clean : (revision.take count).takeWhile (· ≠ 0) = revision.take count := by
    apply takeWhile_eq_self
    intro x member
    simp only [decide_eq_true_eq]
    rintro rfl
    exact noZero (List.mem_of_mem_take member)
  simp only [Option.some_inj,exists_eq_left',clean]

theorem stored_congr {files' : Files} (same : files' (name ++ Context.revisionSuffix) = files (name ++ Context.revisionSuffix)) :
    Stored name revision files' ↔ Stored name revision files := by
  rw [Stored,Stored,get,get,readStringFromFile,readStringFromFile,same]

/-- A mailbox holds one mail. -/
theorem Mailed.eq {other own : Name} (mailed : Mailed name revision files) (mailed' : Mailed other own files) (noNewline : 10 ∉ name)
    (noNewline' : 10 ∉ other) : name = other :=
  mail_inj noNewline noNewline' (Option.some.inj (mailed.symm.trans mailed'))

theorem stored_without_mailbox (value : Option (List UInt8)) :
    Stored name revision (Function.update files Context.revisionMailbox value) ↔ Stored name revision files :=
  stored_congr (Function.update_of_ne (mailbox_ne name).symm _ _)

end Strings

section Steps

variable {name revision : Name} {files files' : Files}

/-- A mailbox that gives nothing. -/
theorem firmwareOk_unread {attempt : Attempt} {state : XiState}
    (unread : readStringFromFile files Context.revisionMailbox attempt.read = (state,none)) : firmwareOk files attempt = (state,files) := by
  rw [firmwareOk,unread]

theorem read_mail (noZero : 0 ∉ mail name revision) (mailed : Mailed name revision files) (read : Read) :
    (read.Gives → readStringFromFile files Context.revisionMailbox read = (.ok,some (mail name revision))) ∧
      (¬ read.Gives → ∃ state, state ≠ .ok ∧ readStringFromFile files Context.revisionMailbox read = (state,none)) := by
  have clean : (mail name revision).takeWhile (· ≠ 0) = mail name revision := by
    apply takeWhile_eq_self
    intro x member
    simp only [decide_eq_true_eq]
    rintro rfl
    exact noZero member
  rw [Mailed] at mailed
  constructor
  · rintro ⟨opens,reads,alloc⟩
    simp only [readStringFromFile,mailed,opens,reads,alloc,if_true,clean]
  · intro fails
    by_cases opens : read.opens = .ok
    · by_cases reads : read.reads = .ok
      · have alloc : read.alloc = false := by simpa [Read.Gives,opens,reads] using fails
        exact ⟨.outOfMemory,by decide,by simp [readStringFromFile,mailed,opens,reads,alloc]⟩
      · exact ⟨read.reads,reads,by simp [readStringFromFile,mailed,opens,reads]⟩
    · exact ⟨read.opens,opens,by simp [readStringFromFile,mailed,opens]⟩

/-- What a call makes of a mail that it has read. -/
theorem firmwareOk_read (noNewline : 10 ∉ name) {attempt : Attempt}
    (read : readStringFromFile files Context.revisionMailbox attempt.read = (.ok,some (mail name revision))) :
    firmwareOk files attempt = (.ok,if attempt.removes then
      Function.update (set files name revision attempt.alloc attempt.write).2 Context.revisionMailbox none
      else (set files name revision attempt.alloc attempt.write).2) := by
  rw [firmwareOk,read]
  simp only [split_mail noNewline]

theorem stored_set_iff (noZero : 0 ∉ revision) (alloc : Bool) (write : Write) :
    Stored name revision (set files name revision alloc write).2 ↔
      if alloc = true ∧ write.opens = .ok then write.Whole revision else Stored name revision files := by
  cases alloc with
  | false => simp [set,writeStringToFile]
  | true =>
    by_cases opens : write.opens = .ok
    · simp [set,writeStringToFile,opens,Write.Whole,stored_update noZero]
    · simp [set,writeStringToFile,opens]

theorem set_mailbox (alloc : Bool) (write : Write) :
    (set files name revision alloc write).2 Context.revisionMailbox = files Context.revisionMailbox := by
  cases alloc with
  | false => rfl
  | true =>
    by_cases opens : write.opens = .ok
    · simp only [set,writeStringToFile,if_true,opens]
      exact Function.update_of_ne (mailbox_ne name) _ _
    · simp [set,writeStringToFile,opens]

theorem set_other {other own : Name} (apart : other ≠ name) (alloc : Bool) (write : Write) :
    Stored other own (set files name revision alloc write).2 ↔ Stored other own files := by
  cases alloc with
  | false => exact Iff.rfl
  | true =>
    unfold set writeStringToFile
    by_cases opens : write.opens = .ok
    · simp only [if_true,opens]
      exact stored_congr (Function.update_of_ne (fun same => apart (List.append_cancel_right same)) _ _)
    · simp only [if_true,opens,if_false]

theorem setFirmwareUpdate_stored {other own : Name} (alloc : Bool) (write : Write) :
    Stored other own (setFirmwareUpdate files name revision alloc write).2 ↔ Stored other own files := by
  unfold setFirmwareUpdate
  cases alloc with
  | false => exact Iff.rfl
  | true =>
    unfold writeStringToFile
    by_cases opens : write.opens = .ok
    · simp only [if_true,opens]
      exact stored_without_mailbox _
    · simp only [if_true,opens,if_false]

theorem setFirmwareUpdate_mailed (alloc : Bool) (write : Write) :
    Mailed name revision (setFirmwareUpdate files name revision alloc write).2 ↔
      if alloc = true ∧ write.opens = .ok then write.Whole (mail name revision) else Mailed name revision files := by
  unfold setFirmwareUpdate
  cases alloc with
  | false => simp
  | true =>
    by_cases opens : write.opens = .ok
    · simp [writeStringToFile,opens,Mailed,Write.Whole]
    · simp [writeStringToFile,opens]

end Steps

section Runs

variable {store store' : Store} {firmware : Firmware}

/-- No accepted update is lost, and the mailbox holds one of them unless none was accepted yet. -/
structure Kept (store : Store) : Prop where
  safe : ∀ firmware, store.Due firmware → Safe firmware store.files
  mailbox : (∀ firmware, ¬ store.Due firmware) ∨ store.files Context.revisionMailbox = none ∨
    ∃ firmware, store.Due firmware ∧ Mailed firmware.name firmware.revision store.files

theorem Store.Due.eq {other : Firmware} (due : store.Due firmware) (due' : store.Due other) (same : other.name = firmware.name) :
    other = firmware := by
  unfold Store.Due at due due'
  rw [same,due] at due'
  exact (Option.some.inj due').symm

/-- While one mail waits every other update has been delivered. -/
theorem Kept.others (kept : Kept store) (mailed : Mailed firmware.name firmware.revision store.files) {other : Firmware}
    (due : store.Due other) (apart : other.name ≠ firmware.name) : Stored other.name other.revision store.files :=
  (kept.safe other due).resolve_left fun mailed' => apart (mailed'.eq mailed other.noNewline firmware.noNewline)

theorem setFirmwareUpdate_iff (alloc : Bool) (write : Write) :
    Wanted store (.setFirmwareUpdate firmware alloc write) ↔ Delivered store (.setFirmwareUpdate firmware alloc write) := by
  unfold Wanted Delivered
  simp only [setFirmwareUpdate_mailed,show ∀ files : Files, (setFirmwareUpdate files firmware.name firmware.revision alloc write).1 = .ok
    from fun _ => rfl,true_imp_iff]
  refine and_congr_right fun mails => forall_congr' fun other => imp_congr_right fun due => imp_congr_right fun apart => ?_
  have mailed := (setFirmwareUpdate_mailed alloc write).mpr mails
  have away : ¬ Mailed other.name other.revision (setFirmwareUpdate store.files firmware.name firmware.revision alloc write).2 :=
    fun mailed' => apart (mailed'.eq mailed other.noNewline firmware.noNewline)
  exact (or_iff_right away).trans (setFirmwareUpdate_stored alloc write)

/-- A mail that is read is delivered just when its revision is stored then; no other update is touched. -/
theorem firmwareOk_mailed (kept : Kept store) (due : store.Due firmware)
    (mailed : Mailed firmware.name firmware.revision store.files) {attempt : Attempt} (gives : attempt.read.Gives) :
    (firmwareOk store.files attempt).1 = .ok ∧
      (Stored firmware.name firmware.revision (firmwareOk store.files attempt).2 ↔
        if attempt.alloc = true ∧ attempt.write.opens = .ok then attempt.write.Whole firmware.revision
        else Stored firmware.name firmware.revision store.files) ∧
      ∀ other, store.Due other → other ≠ firmware → Stored other.name other.revision (firmwareOk store.files attempt).2 := by
  have clean : 0 ∉ firmware.revision := fun member => firmware.noZero (by simp [mail,member])
  rw [firmwareOk_read firmware.noNewline ((read_mail firmware.noZero mailed attempt.read).1 gives)]
  have without (name revision : Name) (files : Files) : Stored name revision
      (if attempt.removes then Function.update files Context.revisionMailbox none else files) ↔ Stored name revision files := by
    split
    · exact stored_without_mailbox none
    · exact Iff.rfl
  refine ⟨rfl,(without _ _ _).trans (stored_set_iff clean _ _),fun other due' differs => (without _ _ _).mpr ?_⟩
  have apart : other.name ≠ firmware.name := fun same => differs (due.eq due' same)
  exact (set_other apart _ _).mpr (kept.others mailed due' apart)

/-- By cases on what the mailbox holds, and on whether it is read. -/
theorem firmwareOk_iff (kept : Kept store) (attempt : Attempt) :
    Wanted store (.firmwareOk attempt) ↔ Delivered store (.firmwareOk attempt) := by
  simp only [Wanted,Delivered]
  rcases kept.mailbox with nothing | empty | ⟨firmware,due,mailed⟩
  · exact iff_of_true ⟨fun _ firmware due => absurd due (nothing firmware),fun firmware due => absurd due (nothing firmware)⟩
      fun firmware due => absurd due (nothing firmware)
  · have unread : readStringFromFile store.files Context.revisionMailbox attempt.read = (.fsOpenError,none) := by
      rw [readStringFromFile,empty]
    rw [firmwareOk_unread unread]
    refine iff_of_true ⟨nofun,kept.safe⟩ fun firmware _ mailed => ?_
    rw [Mailed,empty] at mailed
    cases mailed
  · by_cases gives : attempt.read.Gives
    · obtain ⟨ok,stored,others⟩ := firmwareOk_mailed kept due mailed gives
      constructor
      · rintro ⟨told,_⟩ other due' mailed' _
        obtain rfl : other = firmware := due.eq due' (mailed'.eq mailed other.noNewline firmware.noNewline)
        exact stored.mp (told ok other due')
      · intro delivered
        have all : ∀ other, store.Due other → Stored other.name other.revision (firmwareOk store.files attempt).2 := by
          intro other due'
          by_cases same : other = firmware
          · exact same ▸ stored.mpr (delivered firmware due mailed gives)
          · exact others other due' same
        exact ⟨fun _ => all,fun other due' => .inr (all other due')⟩
    · obtain ⟨state,notOk,unread⟩ := (read_mail firmware.noZero mailed attempt.read).2 gives
      rw [firmwareOk_unread unread]
      exact iff_of_true ⟨fun ok => absurd ok notOk,kept.safe⟩ fun _ _ _ gives' => absurd gives' gives

theorem due_update {other : Firmware} (due : Store.Due ⟨store.files,Function.update store.accepted firmware.name (some firmware)⟩ other) :
    other = firmware ∨ (store.Due other ∧ other.name ≠ firmware.name) := by
  unfold Store.Due at due
  by_cases same : other.name = firmware.name
  · dsimp only at due
    rw [same,Function.update_self] at due
    exact .inl (Option.some.inj due).symm
  · exact .inr ⟨(Function.update_of_ne same _ _).symm.trans due,same⟩

/-- A mail stays in the mailbox, or the mailbox is empty then. -/
theorem firmwareOk_mailbox (kept : Kept store) (attempt : Attempt) :
    (∀ firmware, ¬ store.Due firmware) ∨ (firmwareOk store.files attempt).2 Context.revisionMailbox = none ∨
      ∃ firmware, store.Due firmware ∧ Mailed firmware.name firmware.revision (firmwareOk store.files attempt).2 := by
  refine kept.mailbox.imp id fun known => ?_
  rcases known with empty | ⟨firmware,due,mailed⟩
  · have unread : readStringFromFile store.files Context.revisionMailbox attempt.read = (.fsOpenError,none) := by
      rw [readStringFromFile,empty]
    rw [firmwareOk_unread unread]
    exact .inl empty
  · obtain ⟨given,failed⟩ := read_mail firmware.noZero mailed attempt.read
    by_cases gives : attempt.read.Gives
    · rw [firmwareOk_read firmware.noNewline (given gives)]
      cases attempt.removes with
      | true =>
        left
        simp only [if_true,Function.update_self]
      | false => exact .inr ⟨firmware,due,(set_mailbox _ _).trans mailed⟩
    · obtain ⟨state,_,unread⟩ := failed gives
      rw [firmwareOk_unread unread]
      exact .inr ⟨firmware,due,mailed⟩

theorem wanted_kept (kept : Kept store) {event : Event} (wanted : Wanted store event) (stepped : next store event = some store') :
    Kept store' := by
  cases event with
  | setFirmwareUpdate firmware alloc write =>
    obtain rfl := Option.some.inj stepped
    have mailed := wanted.1 rfl
    refine ⟨fun other due => ?_,.inr (.inr ⟨firmware,Function.update_self _ _ _,mailed⟩)⟩
    rcases @due_update store firmware other due with rfl | ⟨due,apart⟩
    · exact .inl mailed
    · exact wanted.2 other due apart
  | firmwareOk attempt =>
    obtain rfl := Option.some.inj stepped
    exact ⟨wanted.2,firmwareOk_mailbox kept attempt⟩

/-- Whatever firmware is updated, no revision is lost and each call keeps its promise, exactly if each mail and each revision is
written in full and no mail is put over one that has not been delivered. -/
theorem each_delivered_iff (files : Files) (events : List Event) :
    Runs.Each next Wanted {files := files} events ↔ Runs.Each next Delivered {files := files} events := by
  have start : Kept {files := files} := ⟨fun _ due => (Option.some_ne_none _ due.symm).elim,
    .inl fun _ due => (Option.some_ne_none _ due.symm).elim⟩
  refine Runs.each_iff (fun store event kept => ?_) (fun store event store' kept wanted stepped => wanted_kept kept wanted stepped) start
  cases event with
  | setFirmwareUpdate firmware alloc write => exact setFirmwareUpdate_iff alloc write
  | firmwareOk attempt => exact firmwareOk_iff kept attempt

end Runs

/-- The revision "1" of "a" -/
def firmwareA : Firmware := ⟨[97],[49],by decide,by decide⟩

/-- The file of the revision cannot be opened, and the mailbox is removed all the same. -/
theorem revision_lost : ¬ ∀ (files : Files) (events : List Event), Runs.Each next Wanted {files := files} events := by
  intro claim
  have each := claim (fun _ => none)
    [.setFirmwareUpdate firmwareA true {count := 3},.firmwareOk {write := {opens := .fsOpenError,count := 0}}]
  have stored := (each.2 _ rfl).1.1 rfl firmwareA rfl
  cases (show (XiState.fsOpenError,(none : Option Name)) = (.ok,some [49]) from stored)

end XivelyClient.Sft.Revision
