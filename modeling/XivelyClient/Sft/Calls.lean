import XivelyClient.Sft.Steps

/-! What one call can do: the chunks, the reports of the application and the packages, each with all the ways it can go. -/
namespace XivelyClient.Sft

namespace Context

/-- The message of the package is replaced. -/
def received (context : Context) (message : FileUpdateAvailable) : Context :=
  {context with
    updateMessageFua := some (context.nextBlock,message)
    nextBlock := context.nextBlock + 1}.emit (match context.updateMessageFua with
      | some (block,_) => [.messageFreed block]
      | none => [])

def ordered (context : Context) (order : Option (List Int)) : Context := {context with updateableFilesDownloadOrder := order}

/-- Handles have been given out. -/
def counted (context : Context) (next : Nat) : Context := {context with nextHandle := next}

/-- The context that is freed. -/
def buried (context : Context) (checksum : Option (List UInt8)) (effects : List Effect) : Context :=
  {context with
    updateMessageFua := none
    updateableFilesDownloadOrder := none
    updateCurrentFile := none
    updateFirmware := none
    updateFileHandle := none
    checksumContext := checksum
    freed := true}.emit effects

/-- The default order, where the board wrote over it. -/
def boardOrder (answers : Answers) (listLen : Nat) : List Int :=
  (List.range listLen).map fun i : Nat => (answers.downloadOrder[i]?).getD (i : Int)

end Context

/-- The report is about the file that is under download. -/
def Names (context : Context) (filename : Option Name) : Prop :=
  ∃ file name, context.currentFile = some file ∧ file.name = some name ∧ filename = some name

/-- The checksum that a chunk is added to. -/
def Context.fedBefore (context : Context) (chunk : FileChunk) : Option (List UInt8) :=
  if chunk.offset = 0 then some [] else context.checksumContext

/-- The chunk is for the file under download, it can be written, and by its offset and length it is the last one. -/
structure Finishes (context : Context) (answers : Answers) (chunk : FileChunk) (file : FileDesc) (fed : List UInt8) : Prop where
  read : context.currentFile = some file
  named : file.name.isSome
  same : chunk.name = file.name
  opens : chunk.offset = 0 → answers.opens = true
  writes : answers.writes = true
  begun : context.fedBefore chunk = some fed
  whole : file.sizeInBytes ≤ chunk.offset + chunk.length

/-- The last chunk of a file brings the bytes whose checksum is the fingerprint. -/
def Verifies (platform : Platform) (context : Context) (answers : Answers) (chunk : FileChunk) (file : FileDesc)
    (fed : List UInt8) : Prop :=
  Finishes context answers chunk file fed ∧ platform.checksum (fed ++ chunk.chunk) = file.fingerprint

section Revision

variable {context : Context} {file : FileDesc} {answers : Answers}

/-- The handle of a revision is opened, written and closed at once. -/
inductive Stored (handle : Nat) : List Effect → Nat → Prop
  | silent : Stored handle [] handle
  | refused (resource : Name) : Stored handle [.opened none resource] handle
  | stored (resource bytes : Name) (written : Option Nat) : Stored handle
    [.opened (some handle) resource,.wrote (some handle) resource 0 bytes written,.closed (some handle)] (handle + 1)

theorem revisionWriteStringToFile_cases (resource bytes : Name) :
    ∃ effects next, Stored context.nextHandle effects next ∧ (context.nextHandle < next → answers.revisionOpens = true) ∧
      context.revisionWriteStringToFile answers resource bytes = (context.counted next).emit effects := by
  unfold Context.revisionWriteStringToFile
  split
  · rename_i opens
    exact ⟨_,_,.stored resource bytes (answers.wroteRevision bytes),fun _ => opens,rfl⟩
  · exact ⟨_,_,.refused resource,fun later => (Nat.lt_irrefl _ later).elim,rfl⟩

/-- A status, and then the revision, which opens a file only when there is one. -/
theorem currentFileRevisionHandling_cases (read : context.currentFile = some file) :
    ∃ status effects next, (status = [] ∨ status = context.reports file .finished .success) ∧
      Stored context.nextHandle effects next ∧
      (context.nextHandle < next → answers.revisionOpens = true ∧ file.revision ≠ none) ∧
      context.currentFileRevisionHandling answers = (context.counted next).emit (status ++ effects) := by
  obtain ⟨current,same,found⟩ := currentFile_eq read
  unfold Context.currentFileRevisionHandling
  rw [same]
  simp only [found]
  split
  · rw [sendFileStatus_current _ _ read]
    split
    · rename_i name revision _ revised
      obtain ⟨effects,next,stored,opens,written⟩ := @revisionWriteStringToFile_cases
        (context.emit (context.reports file .finished .success)) answers (name ++ Context.revisionSuffix) revision
      refine ⟨_,effects,next,.inr rfl,stored,fun later => ⟨opens later,revised ▸ Option.some_ne_none revision⟩,?_⟩
      rw [written,← emit_emit]
      rfl
    · refine ⟨_,[],_,.inr rfl,.silent,fun later => (Nat.lt_irrefl _ later).elim,?_⟩
      rw [List.append_nil]
      rfl
  · split
    · rename_i name revision _ revised
      obtain ⟨effects,next,stored,opens,written⟩ := @revisionWriteStringToFile_cases context answers Context.revisionMailbox
        (name ++ [10] ++ revision)
      exact ⟨[],effects,next,.inl rfl,stored,fun later => ⟨opens later,revised ▸ Option.some_ne_none revision⟩,written⟩
    · exact ⟨[],[],_,.inl rfl,.silent,fun later => (Nat.lt_irrefl _ later).elim,emit_nil.symm⟩

theorem currentFileRevisionHandling_holds (read : context.currentFile = some file) :
    Holds context (context.currentFileRevisionHandling answers) := by
  obtain ⟨status,effects,next,_,_,_,same⟩ := @currentFileRevisionHandling_cases context file answers read
  rw [same]
  exact ⟨rfl,rfl,rfl,rfl,rfl,rfl,rfl⟩

end Revision

section Chunks

variable (platform : Platform) (context : Context) (answers : Answers) (file : FileDesc) (name : Name) (chunk : FileChunk)

/-- How a chunk for the file under download goes. -/
inductive ChunkOutcome : Context → Prop
  | unopened (first : chunk.offset = 0) (refused : answers.opens = false) :
    ChunkOutcome ((context.unopened name).emit (context.reports file .processing .fileOpen ++ [Effect.packageDownloadFailure]))
  | unwritten (opens : chunk.offset = 0 → answers.opens = true) (refused : answers.writes = false) :
    ChunkOutcome ((context.written answers name chunk).emit
      (context.reports file .processing .fileWrite ++ [Effect.packageDownloadFailure]))
  | unbegun (later : chunk.offset ≠ 0) (writes : answers.writes = true) (absent : context.checksumContext = none) :
    ChunkOutcome ((context.written answers name chunk).abort .nullChecksum)
  | more {fed : List UInt8} (opens : chunk.offset = 0 → answers.opens = true) (writes : answers.writes = true)
    (begun : (context.begun name chunk).checksumContext = some fed)
    (less : chunk.offset + chunk.length < file.sizeInBytes) :
    ChunkOutcome ((context.taken answers name chunk fed).emit (context.requests platform file (chunk.offset + chunk.length)
      (file.sizeInBytes - (chunk.offset + chunk.length))))
  | mismatch {fed : List UInt8} (opens : chunk.offset = 0 → answers.opens = true) (writes : answers.writes = true)
    (begun : (context.begun name chunk).checksumContext = some fed)
    (whole : ¬chunk.offset + chunk.length < file.sizeInBytes)
    (wrong : platform.checksum (fed ++ chunk.chunk) ≠ file.fingerprint) :
    ChunkOutcome ((context.verified answers name chunk fed file).emit
      (context.reports file .downloaded .fileChecksumMismatch ++ [Effect.packageDownloadFailure]))
  | unclosed {fed : List UInt8} (opens : chunk.offset = 0 → answers.opens = true) (writes : answers.writes = true)
    (begun : (context.begun name chunk).checksumContext = some fed)
    (whole : ¬chunk.offset + chunk.length < file.sizeInBytes)
    (right : platform.checksum (fed ++ chunk.chunk) = file.fingerprint) (refused : answers.closes = false) :
    ChunkOutcome ((context.shut answers name chunk fed file).emit (context.reports file .processing .fileClose))
  | done {fed : List UInt8} (opens : chunk.offset = 0 → answers.opens = true) (writes : answers.writes = true)
    (begun : (context.begun name chunk).checksumContext = some fed)
    (whole : ¬chunk.offset + chunk.length < file.sizeInBytes)
    (right : platform.checksum (fed ++ chunk.chunk) = file.fingerprint) (closes : answers.closes = true) :
    ChunkOutcome (((context.shut answers name chunk fed file).currentFileRevisionHandling answers).continuePackageDownload platform answers)

variable {platform context answers file name chunk}

theorem begun_holds : Holds context (context.begun name chunk) := by
  unfold Context.begun
  split
  · exact ⟨rfl,rfl,rfl,rfl,rfl,rfl,rfl⟩
  · exact .refl context

theorem begun_fault : (context.begun name chunk).fault = context.fault := by
  unfold Context.begun
  split <;> rfl

theorem begun_fed : (context.begun name chunk).checksumContext = context.fedBefore chunk := by
  unfold Context.begun Context.fedBefore
  split <;> rfl

theorem Holds.withChecksum {checksum : Option (List UInt8)} {effects : List Effect} :
    Holds context ({context with checksumContext := checksum}.emit effects) := ⟨rfl,rfl,rfl,rfl,rfl,rfl,rfl⟩

theorem Holds.withHandle {handle : Option Nat} {effects : List Effect} :
    Holds context ({context with updateFileHandle := handle}.emit effects) := ⟨rfl,rfl,rfl,rfl,rfl,rfl,rfl⟩

theorem written_holds : Holds context (context.written answers name chunk) := begun_holds.trans Speaks.emit.holds

theorem taken_holds {fed : List UInt8} : Holds context (context.taken answers name chunk fed) := by
  unfold Context.taken
  exact (@written_holds context answers name chunk).trans .withChecksum

theorem verified_holds {fed : List UInt8} : Holds context (context.verified answers name chunk fed file) := by
  unfold Context.verified
  exact taken_holds.trans .withChecksum

theorem shut_holds {fed : List UInt8} : Holds context (context.shut answers name chunk fed file) := by
  unfold Context.shut
  exact (verified_holds.trans Speaks.emit.holds).trans .withHandle

theorem finalized_fault : (context.finalized file).fault = context.fault := rfl

theorem closedFile_fault : context.closedFile.fault = context.fault := rfl

theorem emit_fault {effects : List Effect} : (context.emit effects).fault = context.fault := rfl

theorem written_fault : (context.written answers name chunk).fault = context.fault := emit_fault.trans begun_fault

theorem taken_fault {fed : List UInt8} : (context.taken answers name chunk fed).fault = context.fault :=
  emit_fault.trans (@written_fault context answers name chunk)

theorem verified_fault {fed : List UInt8} : (context.verified answers name chunk fed file).fault = context.fault :=
  finalized_fault.trans taken_fault

theorem shut_fault {fed : List UInt8} : (context.shut answers name chunk fed file).fault = context.fault :=
  (closedFile_fault.trans emit_fault).trans verified_fault

theorem Holds.reports {before after : Context} (holds : Holds before after) : after.reports = before.reports := by
  funext file phase code
  unfold Context.reports
  rw [holds.fnSendMessage]

theorem Holds.requests {before after : Context} (holds : Holds before after) : after.requests platform = before.requests platform := by
  funext file offset length
  unfold Context.requests
  rw [holds.fnSendMessage]

/-- The chunk is refused, or written; the file has been opened where it is the first one. -/
theorem processFileChunk_cases :
    (chunk.offset = 0 ∧ answers.opens = false ∧ context.processFileChunk answers name chunk =
      (.fileOpen,context.unopened name)) ∨
    (chunk.offset = 0 → answers.opens = true) ∧
      (answers.writes = false ∧ context.processFileChunk answers name chunk = (.fileWrite,context.written answers name chunk) ∨
      answers.writes = true ∧
        (chunk.offset ≠ 0 ∧ context.checksumContext = none ∧ context.processFileChunk answers name chunk =
          (.success,(context.written answers name chunk).abort .nullChecksum) ∨
        ∃ fed, (context.begun name chunk).checksumContext = some fed ∧
          context.processFileChunk answers name chunk = (.success,context.taken answers name chunk fed))) := by
  by_cases first : chunk.offset = 0
  · by_cases opens : answers.opens = true
    · have begun : context.begun name chunk = {context with
          updateFileHandle := some context.nextHandle
          nextHandle := context.nextHandle + 1
          checksumContext := some []}.emit [.opened (some context.nextHandle) name,.checksumInit] := if_pos first
      refine .inr ⟨fun _ => opens,?_⟩
      unfold Context.processFileChunk Context.openFirst Context.taken Context.written
      rw [begun]
      cases writes : answers.writes with
      | false => exact .inl ⟨rfl,by simp only [first,if_true,opens]; rfl⟩
      | true => exact .inr ⟨rfl,.inr ⟨[],rfl,by simp only [first,if_true,opens]; rfl⟩⟩
    · have opens := eq_false_of_ne_true opens
      refine .inl ⟨first,opens,?_⟩
      unfold Context.processFileChunk Context.openFirst
      simp only [first,opens,if_true,if_false,Bool.false_eq_true,Bool.not_false]
      rfl
  · have begun : context.begun name chunk = context := if_neg first
    refine .inr ⟨fun same => (first same).elim,?_⟩
    unfold Context.processFileChunk Context.taken Context.written
    rw [begun]
    cases writes : answers.writes with
    | false => exact .inl ⟨rfl,by simp only [first,if_false]; rfl⟩
    | true =>
      refine .inr ⟨rfl,?_⟩
      cases checksum : context.checksumContext with
      | none => exact .inl ⟨first,rfl,by simp only [first,if_false]; simp [checksum,Context.emit]⟩
      | some fed => exact .inr ⟨fed,rfl,by simp only [first,if_false]; simp [checksum,Context.emit]⟩

theorem currentFile_of_holds {before after : Context} (read : before.currentFile = some file) (holds : Holds before after) :
    after.currentFile = some file := holds.currentFile.trans read

theorem Stored.storage {handle next : Nat} {effects : List Effect} (stored : Stored handle effects next) :
    effects.all Effect.storage = true := by
  cases stored <;> rfl

theorem storage_settled (effect : Effect) (storage : effect.storage = true) : effect.settled = true := by
  cases effect <;> first | exact storage | exact (Bool.false_ne_true storage).elim

theorem revised_settled (read : context.currentFile = some file) :
    Appends Effect.settled context (context.currentFileRevisionHandling answers) := by
  obtain ⟨status,effects,next,said,stored,_,same⟩ := @currentFileRevisionHandling_cases context file answers read
  have saved : effects.all Effect.settled = true :=
    List.all_eq_true.mpr fun effect member => storage_settled effect (List.all_eq_true.mp stored.storage effect member)
  refine ⟨status ++ effects,by rw [same]; rfl,?_⟩
  rw [List.all_append,saved,Bool.and_true]
  rcases said with rfl | rfl
  · rfl
  · exact reports_all context file .finished .success fun _ _ => rfl

theorem begun_storage : Appends Effect.storage context (context.begun name chunk) := by
  unfold Context.begun
  split
  · exact ⟨_,rfl,rfl⟩
  · exact .refl context

theorem written_storage : Appends Effect.storage context (context.written answers name chunk) :=
  begun_storage.trans (.emit rfl)

theorem taken_storage {fed : List UInt8} : Appends Effect.storage context (context.taken answers name chunk fed) :=
  (@written_storage context answers name chunk).trans ⟨_,rfl,rfl⟩

theorem verified_storage {fed : List UInt8} : Appends Effect.storage context (context.verified answers name chunk fed file) :=
  taken_storage.trans ⟨_,rfl,rfl⟩

theorem shut_settled {fed : List UInt8} : Appends Effect.settled context (context.shut answers name chunk fed file) :=
  ((verified_storage.mono storage_settled).trans
    (.emit (reports_all context file .downloaded .success fun _ _ => rfl))).trans ⟨_,rfl,rfl⟩

theorem checksumFinal_current {fed : List UInt8} (read : context.currentFile = some file)
    (begun : context.checksumContext = some fed) : context.checksumFinal platform =
      (if platform.checksum fed = file.fingerprint then .success else .fileChecksumMismatch,context.finalized file) := by
  obtain ⟨current,same,found⟩ := currentFile_eq read
  unfold Context.checksumFinal Context.finalized
  simp only [same,begun,found]

theorem finishFile_taken {fed : List UInt8} (read : context.currentFile = some file) :
    (context.taken answers name chunk fed).finishFile platform answers =
      if platform.checksum (fed ++ chunk.chunk) = file.fingerprint then
        if answers.closes then
          ((context.shut answers name chunk fed file).currentFileRevisionHandling answers).continuePackageDownload platform answers
        else (context.shut answers name chunk fed file).emit (context.reports file .processing .fileClose)
      else (context.verified answers name chunk fed file).emit
        (context.reports file .downloaded .fileChecksumMismatch ++ [Effect.packageDownloadFailure]) := by
  unfold Context.finishFile
  rw [@checksumFinal_current platform (context.taken answers name chunk fed) file (fed ++ chunk.chunk)
    (currentFile_of_holds read taken_holds) rfl,
    show (context.taken answers name chunk fed).finalized file = context.verified answers name chunk fed file from rfl]
  by_cases right : platform.checksum (fed ++ chunk.chunk) = file.fingerprint
  · simp only [right,if_true,ne_eq,not_true_eq_false,if_false]
    rw [sendFileStatus_current _ _ (currentFile_of_holds read verified_holds),verified_holds.reports]
    change (if answers.closes = true then
      ((context.shut answers name chunk fed file).currentFileRevisionHandling answers).continuePackageDownload platform answers
      else (context.shut answers name chunk fed file).sendFileStatus none .processing .fileClose) = _
    split
    · rfl
    · rw [sendFileStatus_current _ _ (currentFile_of_holds read shut_holds),shut_holds.reports]
  · simp only [right,if_false,ne_eq,reduceCtorEq,not_false_eq_true,if_true]
    rw [sendFileStatus_current _ _ (currentFile_of_holds read verified_holds),verified_holds.reports,emit_emit]

theorem onCurrentFileChunk_cases (read : context.currentFile = some file) (sound : context.fault = none) :
    ChunkOutcome platform context answers file name chunk (context.onCurrentFileChunk platform answers file name chunk) := by
  unfold Context.onCurrentFileChunk
  rcases @processFileChunk_cases context answers name chunk with
    ⟨first,refused,same⟩ | ⟨opens,⟨refused,same⟩ | ⟨writes,⟨later,absent,same⟩ | ⟨fed,begun,same⟩⟩⟩
  · rw [same]
    have quiet : (context.unopened name).fault = none := sound
    have still : Holds context (context.unopened name) := .withHandle
    simp only [quiet,Option.isSome_none,Bool.false_eq_true,if_false,ne_eq,reduceCtorEq,not_false_eq_true,if_true]
    rw [sendFileStatus_current _ _ (currentFile_of_holds read still),still.reports,emit_emit]
    exact .unopened first refused
  · rw [same]
    have quiet : (context.written answers name chunk).fault = none := begun_fault.trans sound
    simp only [quiet,Option.isSome_none,Bool.false_eq_true,if_false,ne_eq,reduceCtorEq,not_false_eq_true,if_true]
    rw [sendFileStatus_current _ _ (currentFile_of_holds read written_holds),written_holds.reports,emit_emit]
    exact .unwritten opens refused
  · rw [same]
    exact .unbegun later writes absent
  · rw [same]
    have quiet : (context.taken answers name chunk fed).fault = none := begun_fault.trans sound
    simp only [quiet,Option.isSome_none,Bool.false_eq_true,if_false,ne_eq,not_true_eq_false]
    by_cases less : chunk.offset + chunk.length < file.sizeInBytes
    · rw [if_pos less,sendFileGetChunk_current _ _ _ (currentFile_of_holds read taken_holds),taken_holds.requests]
      exact .more opens writes begun less
    · rw [if_neg less,finishFile_taken read]
      split
      · rename_i right
        split
        · rename_i closes
          exact .done opens writes begun less right closes
        · rename_i refused
          exact .unclosed opens writes begun less right (eq_false_of_ne_true refused)
      · rename_i wrong
        exact .mismatch opens writes begun less wrong

end Chunks

section Calls

variable {platform : Platform} {context : Context} {answers : Answers} {file : FileDesc} {current : FilePointer}

/-- What is read through a pointer lies in the list of the package. -/
theorem package_of_file (read : context.file current = some file) :
    ∃ message files, context.updateMessageFua = some (current.block,message) ∧ message.list = some files ∧
      files[current.index]? = some file := by
  unfold Context.file at read
  split at read
  · rename_i block message package
    split at read
    · rename_i same
      subst same
      cases listed : message.list with
      | none =>
        rw [listed] at read
        exact absurd read (by simp)
      | some files =>
        rw [listed] at read
        exact ⟨message,files,package,listed,read⟩
    · exact absurd read (by simp)
  · exact absurd read (by simp)

/-- How a chunk goes when there may be another file under download, or none. -/
inductive Arrived (platform : Platform) (context : Context) (answers : Answers) (chunk : FileChunk) : Context → Prop
  | absent (none : context.updateCurrentFile = none) : Arrived platform context answers chunk context
  | dangling {current : FilePointer} (same : context.updateCurrentFile = some current) (gone : context.file current = none) :
    Arrived platform context answers chunk (context.abort .freedFile)
  | unexpected {file : FileDesc} (read : context.currentFile = some file) (other : chunk.name = none ∨ chunk.name ≠ file.name) :
    Arrived platform context answers chunk (context.emit (context.reports file .downloaded .unexpectedFileChunk))
  | expected {file : FileDesc} {name : Name} {after : Context} (read : context.currentFile = some file)
    (named : file.name = some name) (same : chunk.name = some name)
    (outcome : ChunkOutcome platform context answers file name chunk after) : Arrived platform context answers chunk after

theorem onFileChunk_cases (sound : context.fault = none) (chunk : FileChunk) :
    Arrived platform context answers chunk (context.onFileChunk platform answers chunk) := by
  unfold Context.onFileChunk
  cases same : context.updateCurrentFile with
  | none =>
    simp only
    rw [sendFileStatus_absent _ _ same]
    exact .absent same
  | some current =>
    simp only
    cases found : context.file current with
    | none => exact .dangling same found
    | some file =>
      have read : context.currentFile = some file := Option.bind_eq_some_iff.mpr ⟨current,same,found⟩
      simp only
      cases named : file.name with
      | none =>
        simp only
        rw [sendFileStatus_current _ _ read]
        refine .unexpected read ?_
        rw [named,ne_eq]
        exact Classical.em _
      | some name =>
        simp only
        by_cases match' : chunk.name = some name
        · rw [if_pos match']
          exact .expected read named match' (onCurrentFileChunk_cases read sound)
        · rw [if_neg match',sendFileStatus_current _ _ read]
          exact .unexpected read (.inr (by rwa [named]))

/-- How a report of the application goes. -/
inductive Reported (platform : Platform) (context : Context) (answers : Answers) (filename : Option Name) (successfully : Bool) :
    Context → Prop
  | absent (none : context.updateCurrentFile = none) (success : successfully = true) :
    Reported platform context answers filename successfully context
  | missing (none : context.updateCurrentFile = none) (failure : successfully = false) :
    Reported platform context answers filename successfully (context.abort .absentFile)
  | dangling {current : FilePointer} (same : context.updateCurrentFile = some current) (gone : context.file current = none) :
    Reported platform context answers filename successfully (context.abort .freedFile)
  | unexpected {file : FileDesc} (read : context.currentFile = some file) (success : successfully = true)
    (other : file.name = none ∨ filename ≠ file.name) :
    Reported platform context answers filename successfully
      (context.emit (context.reports file .downloaded .urldlUnexpectedFileName))
  | done {file : FileDesc} {name : Name} (read : context.currentFile = some file) (success : successfully = true)
    (named : file.name = some name) (same : filename = some name) :
    Reported platform context answers filename successfully
      (((context.emit (context.reports file .downloaded .success)).currentFileRevisionHandling answers).continuePackageDownload
        platform answers)
  | failed {file : FileDesc} (read : context.currentFile = some file) (failure : successfully = false) :
    Reported platform context answers filename successfully
      (context.emit (context.reports file .downloaded .urldlFailed ++
        if file.flagMqttDownloadAlsoSupported then context.requests platform file 0 file.sizeInBytes else []))

theorem onFileDownloadedTask_cases (sound : context.fault = none) (filename : Option Name) (successfully : Bool) :
    Reported platform context answers filename successfully
      (context.onFileDownloadedTask platform answers filename successfully) := by
  cases same : context.updateCurrentFile with
  | none =>
    cases successfully with
    | true =>
      unfold Context.onFileDownloadedTask
      rw [if_pos rfl,same]
      simp only
      rw [sendFileStatus_absent _ _ same]
      exact .absent same rfl
    | false =>
      unfold Context.onFileDownloadedTask
      rw [if_neg Bool.false_ne_true,sendFileStatus_absent _ _ same]
      simp only [sound,Option.isSome_none,Bool.false_eq_true,if_false,same]
      exact .missing same rfl
  | some current =>
    cases found : context.file current with
    | none =>
      have fallen : context.onFileDownloadedTask platform answers filename successfully = context.abort .freedFile := by
        unfold Context.onFileDownloadedTask
        cases successfully with
        | true => simp only [if_true,same,found]
        | false =>
          rw [if_neg Bool.false_ne_true]
          unfold Context.sendFileStatus
          cases sends : context.fnSendMessage <;>
            simp [Context.abort,same,found,sound]
      rw [fallen]
      exact .dangling same found
    | some file =>
      have read : context.currentFile = some file := Option.bind_eq_some_iff.mpr ⟨current,same,found⟩
      unfold Context.onFileDownloadedTask
      cases successfully with
      | true =>
        simp only [if_true,same,found]
        by_cases match' : file.name.isSome ∧ filename = file.name
        · obtain ⟨name,named⟩ := Option.isSome_iff_exists.mp match'.1
          rw [if_pos match',sendFileStatus_current _ _ read]
          exact .done read rfl named (match'.2.trans named)
        · rw [if_neg match',sendFileStatus_current _ _ read]
          refine .unexpected read rfl ?_
          rw [← Option.not_isSome_iff_eq_none]
          exact not_and_or.mp match'
      | false =>
        have quiet : (context.emit (context.reports file .downloaded .urldlFailed)).fault = none := sound
        have still : (context.emit (context.reports file .downloaded .urldlFailed)).currentFile = some file := read
        rw [if_neg Bool.false_ne_true,sendFileStatus_current _ _ read]
        simp only [quiet,Option.isSome_none,Bool.false_eq_true,if_false]
        rw [show (context.emit (context.reports file .downloaded .urldlFailed)).updateCurrentFile = some current from same]
        simp only
        rw [show (context.emit (context.reports file .downloaded .urldlFailed)).file current = some file from found]
        simp only
        have outcome := @Reported.failed platform context answers filename false file read rfl
        split
        · rename_i supported
          rw [if_pos supported] at outcome
          rw [sendFileGetChunk_current _ _ _ still,emit_emit]
          exact outcome
        · rename_i unsupported
          rw [if_neg unsupported,List.append_nil] at outcome
          exact outcome

/-- The two allocations succeeded and the board stayed inside the list. -/
def Context.orders (answers : Answers) (listLen : Nat) : Bool :=
  answers.names && answers.order && (Context.boardOrder answers listLen).all (fun entry => 0 ≤ entry && entry < listLen)

theorem orderResourceDownloads_eq (listLen : Nat) : context.orderResourceDownloads answers listLen =
    if Context.orders answers listLen = true then (true,context.ordered (some (Context.boardOrder answers listLen)))
    else (false,context.ordered none) := rfl

/-- How a package arrives. -/
inductive Offered (platform : Platform) (context : Context) (answers : Answers) (message : FileUpdateAvailable) : Context → Prop
  | misread {block : Nat} {old : FileUpdateAvailable} (package : context.updateMessageFua = some (block,old))
    (unlisted : old.list = none) : Offered platform context answers message (context.abort .nullList)
  | empty (without : message.listLen = 0 ∨ message.list = none) :
    Offered platform context answers message (context.received message)
  | refused {files : List FileDesc} (listed : message.list = some files)
    (refused : Context.orders answers message.listLen = false) :
    Offered platform context answers message ((context.received message).ordered none)
  | begun {files : List FileDesc} (listed : message.list = some files) (some' : 0 < message.listLen)
    (orders : Context.orders answers message.listLen = true) :
    Offered platform context answers message
      (((context.received message).ordered (some (Context.boardOrder answers message.listLen))).continuePackageDownload
        platform answers)

theorem onFileUpdateAvailable_cases (sound : context.fault = none) (message : FileUpdateAvailable) :
    Offered platform context answers message (context.onFileUpdateAvailable platform answers message) := by
  by_cases misread : ∃ block old, context.updateMessageFua = some (block,old) ∧ old.list = none ∧ old.listLen ≠ 0
  · obtain ⟨block,old,package,unlisted⟩ := misread
    have fallen : context.freeUpdateMessage = context.abort .nullList := by
      unfold Context.freeUpdateMessage
      rw [package]
      exact if_pos unlisted
    unfold Context.onFileUpdateAvailable
    rw [fallen]
    exact .misread package unlisted.1
  · have freed : ∃ context', context.freeUpdateMessage = context' ∧ context'.fault = none ∧ (∀ message, {context' with
        updateMessageFua := some (context'.nextBlock,message)
        nextBlock := context'.nextBlock + 1} = context.received message) := by
      unfold Context.freeUpdateMessage Context.received
      cases package : context.updateMessageFua with
      | none => exact ⟨context,rfl,sound,fun message => by simp⟩
      | some pair =>
        obtain ⟨block,old⟩ := pair
        refine ⟨_,if_neg fun unlisted => misread ⟨block,old,package,unlisted⟩,sound,fun message => rfl⟩
    obtain ⟨context',same,quiet,received⟩ := freed
    have sound' : ¬context'.fault.isSome = true := by
      rw [quiet]
      exact Bool.false_ne_true
    unfold Context.onFileUpdateAvailable
    rw [same]
    dsimp only
    rw [if_neg sound',received]
    by_cases nonempty : 0 < message.listLen ∧ message.list ≠ none
    · obtain ⟨files,listed⟩ := Option.ne_none_iff_exists'.mp nonempty.2
      rw [if_pos nonempty,orderResourceDownloads_eq]
      by_cases orders : Context.orders answers message.listLen = true
      · rw [if_pos orders]
        exact .begun listed nonempty.1 orders
      · rw [if_neg orders]
        exact .refused listed (eq_false_of_ne_true orders)
    · rw [if_neg nonempty]
      refine .empty ?_
      rcases not_and_or.mp nonempty with zero | unlisted
      · exact .inl (Nat.eq_zero_of_not_pos zero)
      · exact .inr (not_not.mp unlisted)

theorem finishes_of_outcome {name : Name} {chunk : FileChunk} {fed : List UInt8} (read : context.currentFile = some file)
    (named : file.name = some name) (same : chunk.name = some name) (opens : chunk.offset = 0 → answers.opens = true)
    (writes : answers.writes = true) (begun : (context.begun name chunk).checksumContext = some fed)
    (whole : ¬chunk.offset + chunk.length < file.sizeInBytes) : Finishes context answers chunk file fed where
  read := read
  named := by rw [named]; rfl
  same := same.trans named.symm
  opens := opens
  writes := writes
  begun := begun_fed.symm.trans begun
  whole := UInt32.not_lt.mp whole

theorem fetches_all {name : Name} {allowed : Effect → Bool} (url : ∀ name accepted, allowed (.handleUrl name accepted) = true)
    (status : ∀ name revision code, allowed (.fileStatus name revision .downloading code) = true)
    (request : ∀ name revision offset length, allowed (.fileGetChunk name revision offset length) = true) :
    (context.fetches platform answers file name).all allowed = true := by
  have reports (code : FileStatusCode) : (context.reports file .downloading code).all allowed = true :=
    reports_all context file .downloading code fun name revision => status name revision code
  unfold Context.fetches
  dsimp only
  rw [List.all_append,List.all_append,Bool.and_eq_true_iff,Bool.and_eq_true_iff]
  refine ⟨⟨?_,?_⟩,?_⟩
  · split
    · rw [List.all_cons,url]
      rfl
    · rfl
  · split
    · exact reports _
    · rfl
  · split
    · exact reports _
    · split
      · exact requests_all platform context file 0 _ fun name revision => request name revision _ _
      · rfl

/-- However a package goes on, the files and the checksum are left alone. -/
theorem Continued.rests {block : Nat} {message : FileUpdateAvailable} {files : List FileDesc} {after : Context}
    (continued : Continued platform answers context block message files after) : Rests context after := by
  cases continued with
  | unordered ordered => exact .refl context
  | @next order rest index file name ordered next read named =>
    refine ⟨rfl,rfl,rfl,rfl,Effect.selected (some ⟨block,index⟩) :: context.fetches platform answers file name,
      List.append_assoc _ _ _,?_⟩
    exact @fetches_all _ _ _ _ _ (!·.storage) (fun _ _ => rfl) (fun _ _ _ => rfl) fun _ _ _ _ => rfl
  | misread ordered next cause => exact ⟨rfl,rfl,rfl,rfl,_,rfl,rfl⟩
  | @ended order effects firmware ordered last read told =>
    refine ⟨rfl,rfl,rfl,rfl,Effect.selected none :: (effects ++ [Effect.packageDownloadFinished firmware,Effect.messageFreed block]),
      List.append_assoc _ _ _,?_⟩
    rw [List.all_cons,List.all_append]
    rcases told with rfl | ⟨file,rfl⟩
    · rfl
    · rw [@reports_all context file .processing .success (!·.storage) fun _ _ => rfl]
      rfl
  | dangling ordered last firmware gone => exact ⟨rfl,rfl,rfl,rfl,_,rfl,rfl⟩

/-- How the context ends. -/
inductive Freed (context : Context) : Context → Prop
  | dangling {current : FilePointer} (same : context.updateCurrentFile = some current) (gone : context.file current = none) :
    Freed context (context.abort .freedFile)
  | misread {checksum : Option (List UInt8)} {finals : List Effect} {block : Nat} {old : FileUpdateAvailable}
    (checked : finals = [] ∨ ∃ file, finals = [.checksumFinal file])
    (package : context.updateMessageFua = some (block,old)) (unlisted : old.list = none) :
    Freed context (({context with checksumContext := checksum}.emit (finals ++ [Effect.closed context.updateFileHandle])).abort
      .nullList)
  | freed {checksum : Option (List UInt8)} {finals frees : List Effect}
    (checked : finals = [] ∨ ∃ file, finals = [.checksumFinal file]) (released : frees = [] ∨ ∃ block, frees = [.messageFreed block]) :
    Freed context (context.buried checksum (finals ++ [Effect.closed context.updateFileHandle] ++ frees))

theorem checksumFinal_cases :
    (∃ current, context.updateCurrentFile = some current ∧ context.file current = none ∧
      (context.checksumFinal platform).2 = context.abort .freedFile) ∨
    ∃ checksum finals, (finals = [] ∨ ∃ file, finals = [.checksumFinal file]) ∧
      (context.checksumFinal platform).2 = {context with checksumContext := checksum}.emit finals := by
  have unchanged : context = {context with checksumContext := context.checksumContext}.emit [] := emit_nil.symm
  unfold Context.checksumFinal
  split
  · rename_i current fed same begun
    split
    · rename_i gone
      exact .inl ⟨current,same,gone,rfl⟩
    · rename_i file found
      exact .inr ⟨none,[.checksumFinal file],.inr ⟨file,rfl⟩,rfl⟩
  · exact .inr ⟨_,[],.inl rfl,unchanged⟩

theorem freeUpdateMessage_cases :
    (∃ frees, (frees = [] ∨ ∃ block, frees = [.messageFreed block]) ∧ context.freeUpdateMessage = context.released.emit frees) ∨
    ∃ block old, context.updateMessageFua = some (block,old) ∧ old.list = none ∧
      context.freeUpdateMessage = context.abort .nullList := by
  unfold Context.freeUpdateMessage Context.released
  split
  · rename_i absent
    refine .inl ⟨[],.inl rfl,?_⟩
    rw [emit_nil,← absent]
  · rename_i block old package
    split
    · rename_i unlisted
      exact .inr ⟨block,old,package,unlisted.1,rfl⟩
    · exact .inl ⟨[.messageFreed block],.inr ⟨block,rfl⟩,rfl⟩

theorem freeContext_cases (sound : context.fault = none) : Freed context (context.freeContext platform) := by
  have silent {fault : Option Fault} (none : fault = none) : ¬fault.isSome = true := by
    rw [none]
    exact Bool.false_ne_true
  unfold Context.freeContext
  rcases @checksumFinal_cases platform context with ⟨current,same,gone,fallen⟩ | ⟨checksum,finals,checked,ended⟩
  · dsimp only
    rw [fallen]
    exact .dangling same gone
  · have quiet : ¬({context with checksumContext := checksum}.emit finals).fault.isSome = true := silent sound
    have handle : ({context with checksumContext := checksum}.emit finals).updateFileHandle = context.updateFileHandle := rfl
    dsimp only
    rw [ended,if_neg quiet,emit_emit]
    rcases @freeUpdateMessage_cases ({context with checksumContext := checksum}.emit
      (finals ++ [Effect.closed context.updateFileHandle])) with ⟨frees,released,same⟩ | ⟨block,old,package,unlisted,same⟩
    · have sound' : ¬(({context with checksumContext := checksum}.emit
          (finals ++ [Effect.closed context.updateFileHandle])).released.emit frees).fault.isSome = true := silent sound
      have gone := @Freed.freed context checksum finals frees checked released
      unfold Context.buried at gone
      rw [← emit_emit] at gone
      rw [handle,same,if_neg sound']
      exact gone
    · have fallen := @Freed.misread context checksum finals block old checked package unlisted
      rw [handle,same]
      exact fallen

/-- What a call does in a context that lives. -/
inductive Stepped (platform : Platform) (context : Context) (answers : Answers) : Event → Context → Prop
  | fileUpdateAvailable {message : FileUpdateAvailable} {after : Context} (offered : Offered platform context answers message after) :
    Stepped platform context answers (.fileUpdateAvailable message) after
  | fileChunk {chunk : FileChunk} {after : Context} (arrived : Arrived platform context answers chunk after) :
    Stepped platform context answers (.fileChunk chunk) after
  | unhandledMessage : Stepped platform context answers .unhandledMessage context
  | fileDownloaded {filename : Option Name} {successfully : Bool} {after : Context}
    (reported : Reported platform context answers filename successfully after) :
    Stepped platform context answers (.fileDownloaded filename successfully) after
  | freeContext {after : Context} (freed : Freed context after) : Stepped platform context answers .freeContext after

theorem step_ended (call : Answers × Event) (ended : context.fault ≠ none ∨ context.freed = true) :
    step platform context call = context := by
  unfold step
  refine if_pos (Bool.or_eq_true_iff.mpr ?_)
  exact ended.imp_left Option.isSome_iff_ne_none.mpr

theorem step_cases (sound : context.fault = none) (alive : context.freed = false) (call : Answers × Event) :
    Stepped platform context call.1 call.2 (step platform context call) := by
  obtain ⟨answers,event⟩ := call
  unfold step
  rw [if_neg (by rw [sound,alive]; exact Bool.false_ne_true)]
  cases event with
  | fileUpdateAvailable message => exact .fileUpdateAvailable (onFileUpdateAvailable_cases sound message)
  | fileChunk chunk => exact .fileChunk (onFileChunk_cases sound chunk)
  | unhandledMessage => exact .unhandledMessage
  | fileDownloaded filename successfully => exact .fileDownloaded (onFileDownloadedTask_cases sound filename successfully)
  | freeContext => exact .freeContext (freeContext_cases sound)

/-- A step of a context that has ended changes nothing, and every other step is one of the calls. -/
theorem step_stepped (call : Answers × Event) : step platform context call = context ∨
    context.fault = none ∧ context.freed = false ∧ Stepped platform context call.1 call.2 (step platform context call) := by
  by_cases ended : context.fault ≠ none ∨ context.freed = true
  · exact .inl (step_ended call ended)
  · rw [not_or,not_not,Bool.not_eq_true] at ended
    exact .inr ⟨ended.1,ended.2,step_cases ended.1 ended.2 call⟩

end Calls

section Examples

/-- A board without firmware, whose checksum is the bytes themselves. -/
def plainPlatform : Platform where
  isThisFirmware := fun _ => false
  checksum := id

def fileNamed (name : Name) : FileDesc where
  name := some name
  revision := some [49]
  sizeInBytes := 2
  fingerprint := [1,2]

theorem one_byte_small : [(1 : UInt8)].length < 2 ^ 32 := by decide

def wholeChunk (name : Name) : FileChunk where
  name := some name
  offset := 0
  chunk := [1,2]
  small := by decide

end Examples

end XivelyClient.Sft
