import XivelyClient.Sft.Logic

/-! What the functions of the transfer leave alone, and what one chunk and one report of the application can do. -/
namespace XivelyClient.Sft

namespace Effect

/-- What is done to the files and to the checksum. -/
def storage : Effect → Bool
  | .opened _ _ | .wrote _ _ _ _ _ | .closed _ | .checksumInit | .checksumUpdate _ | .checksumFinal _ => true
  | _ => false

/-- What is done to the files, and what tells that all is well. -/
def settled : Effect → Bool
  | .fileStatus _ _ _ code => code = .success
  | effect => effect.storage

def isRequest : Effect → Bool
  | .fileGetChunk _ _ _ _ => true
  | _ => false

end Effect

/-- Only such effects were added. -/
def Appends (allowed : Effect → Bool) (before after : Context) : Prop :=
  ∃ more, after.effects = before.effects ++ more ∧ more.all allowed = true

/-- Nothing but effects, and perhaps a fault. -/
def Speaks (before after : Context) : Prop := after = {before with effects := after.effects,fault := after.fault}

/-- The files and the checksum are left alone. -/
structure Rests (before after : Context) : Prop where
  updateFileHandle : after.updateFileHandle = before.updateFileHandle
  checksumContext : after.checksumContext = before.checksumContext
  nextHandle : after.nextHandle = before.nextHandle
  freed : after.freed = before.freed
  effects : Appends (!·.storage) before after

/-- The package and the pointers into it are left alone. -/
structure Holds (before after : Context) : Prop where
  updateMessageFua : after.updateMessageFua = before.updateMessageFua
  updateCurrentFile : after.updateCurrentFile = before.updateCurrentFile
  updateFirmware : after.updateFirmware = before.updateFirmware
  order : after.updateableFilesDownloadOrder = before.updateableFilesDownloadOrder
  fnSendMessage : after.fnSendMessage = before.fnSendMessage
  sftUrlHandlerCallback : after.sftUrlHandlerCallback = before.sftUrlHandlerCallback
  nextBlock : after.nextBlock = before.nextBlock

namespace Context

/-- The file under download, when there is one and its list is there. -/
def currentFile (context : Context) : Option FileDesc := context.updateCurrentFile.bind context.file

/-- What a status says when there is somebody to send it. -/
def reports (context : Context) (file : FileDesc) (phase : FileStatusPhase) (code : FileStatusCode) : List Effect :=
  if context.fnSendMessage then createFileStatus file phase code else []

def requests (platform : Platform) (context : Context) (file : FileDesc) (offset length : UInt32) : List Effect :=
  if context.fnSendMessage then createFileGetChunk file offset (min platform.fileChunkSize length) else []

/-- The context behind the opening of the file that a chunk begins. -/
def begun (context : Context) (name : Name) (chunk : FileChunk) : Context :=
  if chunk.offset = 0 then {context with
    updateFileHandle := some context.nextHandle
    nextHandle := context.nextHandle + 1
    checksumContext := some []}.emit [.opened (some context.nextHandle) name,.checksumInit]
  else context

def unopened (context : Context) (name : Name) : Context := {context with updateFileHandle := none}.emit [.opened none name]

def written (context : Context) (answers : Answers) (name : Name) (chunk : FileChunk) : Context :=
  (context.begun name chunk).emit [.wrote (context.begun name chunk).updateFileHandle name chunk.offset chunk.chunk (answers.wrote chunk.chunk)]

/-- The context behind a chunk that was written and goes on the checksum of the bytes before it. -/
def taken (context : Context) (answers : Answers) (name : Name) (chunk : FileChunk) (fed : List UInt8) : Context :=
  {context.written answers name chunk with checksumContext := some (fed ++ chunk.chunk)}.emit [.checksumUpdate chunk.chunk]

def finalized (context : Context) (file : FileDesc) : Context :=
  {context with checksumContext := none}.emit [.checksumFinal file]

def closedFile (context : Context) : Context :=
  {context.emit [.closed context.updateFileHandle] with updateFileHandle := none}

/-- The context behind the last chunk of a file, its checksum made. -/
def verified (context : Context) (answers : Answers) (name : Name) (chunk : FileChunk) (fed : List UInt8) (file : FileDesc) : Context :=
  (context.taken answers name chunk fed).finalized file

/-- The context behind a file that was verified, with its handle closed. -/
def shut (context : Context) (answers : Answers) (name : Name) (chunk : FileChunk) (fed : List UInt8) (file : FileDesc) : Context :=
  ((context.verified answers name chunk fed file).emit (context.reports file .downloaded .success)).closedFile

end Context

section Frames

variable {allowed wider : Effect → Bool} {before between after context : Context} {effects : List Effect}

theorem Appends.refl (context : Context) : Appends allowed context context := ⟨[],(List.append_nil _).symm,rfl⟩

theorem Appends.trans (first : Appends allowed before between) (second : Appends allowed between after) :
    Appends allowed before after := by
  obtain ⟨more,same,all⟩ := first
  obtain ⟨more',same',all'⟩ := second
  refine ⟨more ++ more',?_,?_⟩
  · rw [same',same,List.append_assoc]
  · rw [List.all_append,all,all']
    rfl

theorem Appends.mono (weaker : ∀ effect, allowed effect = true → wider effect = true) (appends : Appends allowed before after) :
    Appends wider before after := by
  obtain ⟨more,same,all⟩ := appends
  exact ⟨more,same,List.all_eq_true.mpr fun effect member => weaker effect (List.all_eq_true.mp all effect member)⟩

theorem Appends.emit (all : effects.all allowed = true) : Appends allowed context (context.emit effects) := ⟨effects,rfl,all⟩

theorem Speaks.refl (context : Context) : Speaks context context := rfl

theorem Speaks.emit : Speaks context (context.emit effects) := rfl

theorem Speaks.abort {fault : Fault} : Speaks context (context.abort fault) := rfl

theorem Speaks.field {α : Type*} (speaks : Speaks before after) (f : Context → α) :
    f after = f {before with effects := after.effects,fault := after.fault} := congrArg f speaks

theorem Speaks.holds (speaks : Speaks before after) : Holds before after :=
  ⟨speaks.field Context.updateMessageFua,speaks.field Context.updateCurrentFile,speaks.field Context.updateFirmware,
    speaks.field Context.updateableFilesDownloadOrder,speaks.field Context.fnSendMessage,
    speaks.field Context.sftUrlHandlerCallback,speaks.field Context.nextBlock⟩

theorem Speaks.rests (speaks : Speaks before after) (quiet : Appends (!·.storage) before after) : Rests before after :=
  ⟨speaks.field Context.updateFileHandle,speaks.field Context.checksumContext,speaks.field Context.nextHandle,
    speaks.field Context.freed,quiet⟩

theorem Holds.refl (context : Context) : Holds context context := ⟨rfl,rfl,rfl,rfl,rfl,rfl,rfl⟩

theorem Holds.trans (first : Holds before between) (second : Holds between after) : Holds before after :=
  ⟨second.1.trans first.1,second.2.trans first.2,second.3.trans first.3,second.4.trans first.4,second.5.trans first.5,
    second.6.trans first.6,second.7.trans first.7⟩

theorem Holds.file (holds : Holds before after) : after.file = before.file := by
  funext pointer
  unfold Context.file
  rw [holds.updateMessageFua]

theorem Holds.currentFile (holds : Holds before after) : after.currentFile = before.currentFile := by
  unfold Context.currentFile
  rw [holds.updateCurrentFile,holds.file]

theorem Rests.refl (context : Context) : Rests context context := ⟨rfl,rfl,rfl,rfl,.refl context⟩

theorem emit_emit (more : List Effect) : (context.emit effects).emit more = context.emit (effects ++ more) := by
  unfold Context.emit
  rw [List.append_assoc]

@[simp] theorem emit_nil : context.emit [] = context := by
  unfold Context.emit
  rw [List.append_nil]

theorem Rests.emit (quiet : effects.all (!·.storage) = true) : Rests context (context.emit effects) :=
  Speaks.emit.rests (.emit quiet)

end Frames

section Messages

/-! A message says something of the file that is read, and changes nothing. -/

variable (platform : Platform) (context : Context) (file : FileDesc) (phase : FileStatusPhase) (code : FileStatusCode)
  (offset length : UInt32)

theorem createFileStatus_all {allowed : Effect → Bool}
    (each : ∀ name revision, file.name = some name → file.revision = some revision →
      allowed (.fileStatus name revision phase code) = true) :
    (Context.createFileStatus file phase code).all allowed = true := by
  unfold Context.createFileStatus
  split
  · rename_i name revision named revised
    simp [each name revision named revised]
  · rfl

theorem createFileGetChunk_all {allowed : Effect → Bool}
    (each : ∀ name revision, file.name = some name → file.revision = some revision →
      allowed (.fileGetChunk name revision offset length) = true) :
    (Context.createFileGetChunk file offset length).all allowed = true := by
  unfold Context.createFileGetChunk
  split
  · rename_i name revision named revised
    simp [each name revision named revised]
  · rfl

theorem reports_all {allowed : Effect → Bool} (each : ∀ name revision, allowed (.fileStatus name revision phase code) = true) :
    (context.reports file phase code).all allowed = true := by
  unfold Context.reports
  split
  · exact createFileStatus_all file phase code fun name revision _ _ => each name revision
  · rfl

theorem requests_all {allowed : Effect → Bool}
    (each : ∀ name revision, allowed (.fileGetChunk name revision offset (min platform.fileChunkSize length)) = true) :
    (context.requests platform file offset length).all allowed = true := by
  unfold Context.requests
  split
  · exact createFileGetChunk_all file offset _ fun name revision _ _ => each name revision
  · rfl

variable {context file}

theorem currentFile_eq (read : context.currentFile = some file) :
    ∃ current, context.updateCurrentFile = some current ∧ context.file current = some file :=
  Option.bind_eq_some_iff.mp read

theorem sendFileStatus_current (read : context.currentFile = some file) :
    context.sendFileStatus none phase code = context.emit (context.reports file phase code) := by
  obtain ⟨current,same,found⟩ := currentFile_eq read
  unfold Context.sendFileStatus Context.reports
  split
  · rw [same]
    simp [found]
  · rw [emit_nil]

theorem sendFileGetChunk_current (read : context.currentFile = some file) :
    context.sendFileGetChunk platform offset length = context.emit (context.requests platform file offset length) := by
  obtain ⟨current,same,found⟩ := currentFile_eq read
  unfold Context.sendFileGetChunk Context.requests
  split
  · rw [same]
    simp [found]
  · rw [emit_nil]

theorem sendFileStatus_absent (absent : context.updateCurrentFile = none) :
    context.sendFileStatus none phase code = context := by
  unfold Context.sendFileStatus
  rw [absent]
  split <;> rfl

end Messages

namespace Context

/-- What is done to get a file that has just been selected. -/
def fetches (platform : Platform) (context : Context) (answers : Answers) (file : FileDesc) (name : Name) : List Effect :=
  let asked := file.downloadLink.isSome && context.sftUrlHandlerCallback
  let started := asked && answers.accepts
  (if asked then [.handleUrl name answers.accepts] else []) ++
    (if asked && !started then context.reports file .downloading .urldlRejected else []) ++
    if started then context.reports file .downloading .success
    else if file.downloadLink = none ∨ file.flagMqttDownloadAlsoSupported = true then
      context.requests platform file 0 file.sizeInBytes
    else []

/-- The next file of the order is the current one. -/
def chosen (context : Context) (pointer : FilePointer) (order : List Int) : Context :=
  {context with updateCurrentFile := some pointer,updateableFilesDownloadOrder := some order}.emit [.selected (some pointer)]

/-- A file that is firmware is remembered. -/
def marked (platform : Platform) (context : Context) (name : Name) (pointer : FilePointer) : Context :=
  {context with updateFirmware := if platform.isThisFirmware name then some pointer else context.updateFirmware}

def released (context : Context) : Context := {context with updateMessageFua := none}

/-- No file is left. -/
def ended (context : Context) : Context := {context with updateCurrentFile := none}.emit [.selected none]

end Context

section Package

variable {platform : Platform} {context : Context} {answers : Answers} {file : FileDesc} {name : Name} {current : FilePointer}
  {block : Nat} {message : FileUpdateAvailable} {files : List FileDesc}

theorem file_eq (package : context.updateMessageFua = some (block,message)) (listed : message.list = some files) (index : Nat) :
    context.file ⟨block,index⟩ = files[index]? := by
  unfold Context.file
  rw [package]
  simp [listed]

theorem fetchFile_eq (read : context.currentFile = some file) :
    context.fetchFile platform answers file name = context.emit (context.fetches platform answers file name) := by
  have still (effects : List Effect) : (context.emit effects).currentFile = some file := read
  unfold Context.fetchFile Context.fetches
  by_cases asked : (file.downloadLink.isSome && context.sftUrlHandlerCallback) = true
  · by_cases accepts : answers.accepts = true
    · simp only [asked,accepts,Bool.and_true,Bool.not_true,if_true,Bool.and_false,if_false,Bool.false_eq_true]
      rw [sendFileStatus_current _ _ (still _),emit_emit]
      rfl
    · have accepts := eq_false_of_ne_true accepts
      have linked : file.downloadLink ≠ none := Option.isSome_iff_ne_none.mp (Bool.and_eq_true_iff.mp asked).1
      simp only [asked,accepts,Bool.and_false,Bool.not_false,if_true,Bool.and_true,if_false,linked,false_or,
        Bool.false_eq_true]
      rw [sendFileStatus_current _ _ (still _),emit_emit]
      split
      · rw [sendFileGetChunk_current _ _ _ (still _),emit_emit]
        rfl
      · rw [List.append_nil]
        rfl
  · simp only [asked,Bool.false_and,if_false,Bool.false_eq_true,List.nil_append]
    split
    · rw [sendFileGetChunk_current _ _ _ read]
    · rw [emit_nil]

theorem downloadCurrentFile_eq (same : context.updateCurrentFile = some current) (read : context.file current = some file)
    (named : file.name = some name) : context.downloadCurrentFile platform answers =
    (context.marked platform name current).emit (context.fetches platform answers file name) := by
  have still : (context.marked platform name current).currentFile = some file := Option.bind_eq_some_iff.mpr ⟨current,same,read⟩
  refine Eq.trans ?_ (@fetchFile_eq platform (context.marked platform name current) answers file name still)
  unfold Context.downloadCurrentFile Context.marked
  simp only [same,read,named]

/-- How a package goes on: it has no order, its next file is fetched, the next file cannot be read, or the package ends,
where the firmware may not be readable. -/
inductive Continued (platform : Platform) (answers : Answers) (context : Context) (block : Nat) (message : FileUpdateAvailable)
    (files : List FileDesc) : Context → Prop
  | unordered (ordered : context.updateableFilesDownloadOrder = none) : Continued platform answers context block message files context
  | next {order rest : List Int} {index : Nat} {file : FileDesc} {name : Name}
    (ordered : context.updateableFilesDownloadOrder = some order) (next : Context.takeNext message.listLen order = some (index,rest))
    (read : files[index]? = some file) (named : file.name = some name) :
    Continued platform answers context block message files
      (((context.chosen ⟨block,index⟩ rest).marked platform name ⟨block,index⟩).emit (context.fetches platform answers file name))
  | misread {order rest : List Int} {index : Nat} {fault : Fault}
    (ordered : context.updateableFilesDownloadOrder = some order) (next : Context.takeNext message.listLen order = some (index,rest))
    (cause : files[index]? = none ∧ fault = .freedFile ∨
      (∃ file, files[index]? = some file ∧ file.name = none) ∧ fault = .nullName) :
    Continued platform answers context block message files ((context.chosen ⟨block,index⟩ rest).abort fault)
  | ended {order : List Int} {effects : List Effect} {firmware : Option Name}
    (ordered : context.updateableFilesDownloadOrder = some order) (last : Context.takeNext message.listLen order = none)
    (read : ∀ pointer, context.updateFirmware = some pointer → (context.file pointer).isSome)
    (told : effects = [] ∨ ∃ file, effects = context.reports file .processing .success) :
    Continued platform answers context block message files
      (context.ended.released.emit (effects ++ [Effect.packageDownloadFinished firmware,Effect.messageFreed block]))
  | dangling {order : List Int} {pointer : FilePointer}
    (ordered : context.updateableFilesDownloadOrder = some order) (last : Context.takeNext message.listLen order = none)
    (firmware : context.updateFirmware = some pointer) (gone : context.file pointer = none) :
    Continued platform answers context block message files (context.ended.abort .freedFile)

theorem freeUpdateMessage_listed (package : context.updateMessageFua = some (block,message)) (listed : message.list = some files) :
    context.freeUpdateMessage = context.released.emit [.messageFreed block] := by
  unfold Context.freeUpdateMessage
  rw [package]
  simp only [listed,reduceCtorEq,false_and,if_false]
  rfl

section Selection

variable {order rest : List Int} {index : Nat}

theorem selectNextResourceToDownload_next (package : context.updateMessageFua = some (block,message))
    (listed : message.list = some files) (ordered : context.updateableFilesDownloadOrder = some order)
    (next : Context.takeNext message.listLen order = some (index,rest)) :
    context.selectNextResourceToDownload = (true,context.chosen ⟨block,index⟩ rest) := by
  unfold Context.selectNextResourceToDownload Context.chosen
  simp only [ordered,package,listed,next,reduceCtorEq,and_false,if_false]

theorem selectNextResourceToDownload_last (package : context.updateMessageFua = some (block,message))
    (listed : message.list = some files) (ordered : context.updateableFilesDownloadOrder = some order)
    (last : Context.takeNext message.listLen order = none) :
    context.selectNextResourceToDownload = (true,context.ended) := by
  unfold Context.selectNextResourceToDownload Context.ended
  simp only [ordered,package,listed,last,reduceCtorEq,and_false,if_false]

theorem selectNextResourceToDownload_unordered (ordered : context.updateableFilesDownloadOrder = none) :
    context.selectNextResourceToDownload = (false,context) := by
  unfold Context.selectNextResourceToDownload
  rw [ordered]

end Selection

/-- The file that was chosen cannot be read, or it has no name for the board. -/
theorem downloadCurrentFile_misread {fault : Fault} (same : context.updateCurrentFile = some current)
    (cause : context.file current = none ∧ fault = .freedFile ∨
      ∃ file, context.file current = some file ∧ file.name = none ∧ fault = .nullName) :
    context.downloadCurrentFile platform answers = context.abort fault := by
  unfold Context.downloadCurrentFile
  rw [same]
  rcases cause with ⟨gone,rfl⟩ | ⟨file,read,unnamed,rfl⟩
  · simp only [gone]
  · simp only [read,unnamed]

theorem sendFileStatus_of_file {phase : FileStatusPhase} {code : FileStatusCode} (read : context.file current = some file) :
    context.sendFileStatus (some current) phase code = context.emit (context.reports file phase code) := by
  unfold Context.sendFileStatus Context.reports
  split
  · simp [read]
  · rw [emit_nil]

/-- The end of a package whose firmware is there, or has none. -/
theorem finishPackage_cases (package : context.updateMessageFua = some (block,message)) (listed : message.list = some files) :
    (∃ firmware effects, (∀ pointer, context.updateFirmware = some pointer → (context.file pointer).isSome) ∧
      (effects = [] ∨ ∃ file, effects = context.reports file .processing .success) ∧
      context.finishPackage = context.released.emit
        (effects ++ [Effect.packageDownloadFinished firmware,Effect.messageFreed block])) ∨
    ∃ pointer, context.updateFirmware = some pointer ∧ context.file pointer = none ∧
      context.finishPackage = context.abort .freedFile := by
  have freed (effects : List Effect) : (context.emit effects).freeUpdateMessage =
      context.released.emit (effects ++ [Effect.messageFreed block]) := by
    rw [@freeUpdateMessage_listed (context.emit effects) block message files package listed,← emit_emit]
    rfl
  cases firmware : context.updateFirmware with
  | none =>
    refine .inl ⟨none,[],fun pointer same => (Option.some_ne_none pointer same.symm).elim,.inl rfl,?_⟩
    unfold Context.finishPackage
    rw [firmware]
    exact freed _
  | some pointer =>
    cases read : context.file pointer with
    | none =>
      refine .inr ⟨pointer,rfl,read,?_⟩
      unfold Context.finishPackage
      rw [firmware]
      simp only [read]
    | some file =>
      refine .inl ⟨file.name,context.reports file .processing .success,fun other same => ?_,.inr ⟨file,rfl⟩,?_⟩
      · cases same
        rw [read]
        rfl
      · unfold Context.finishPackage
        rw [firmware]
        simp only [read]
        rw [sendFileStatus_of_file read,emit_emit,freed,List.append_assoc]
        rfl

theorem continuePackageDownload_cases (package : context.updateMessageFua = some (block,message))
    (listed : message.list = some files) :
    Continued platform answers context block message files (context.continuePackageDownload platform answers) := by
  unfold Context.continuePackageDownload
  cases ordered : context.updateableFilesDownloadOrder with
  | none =>
    rw [selectNextResourceToDownload_unordered ordered]
    exact .unordered ordered
  | some order =>
    cases next : Context.takeNext message.listLen order with
    | some taken =>
      obtain ⟨index,rest⟩ := taken
      rw [selectNextResourceToDownload_next package listed ordered next]
      change Continued platform answers context block message files
        ((context.chosen ⟨block,index⟩ rest).downloadCurrentFile platform answers)
      have found : (context.chosen ⟨block,index⟩ rest).file ⟨block,index⟩ = files[index]? :=
        @file_eq (context.chosen ⟨block,index⟩ rest) block message files package listed index
      cases read : files[index]? with
      | none =>
        rw [downloadCurrentFile_misread rfl (.inl ⟨found.trans read,rfl⟩)]
        exact .misread ordered next (.inl ⟨read,rfl⟩)
      | some file =>
        cases named : file.name with
        | none =>
          rw [downloadCurrentFile_misread rfl (.inr ⟨file,found.trans read,named,rfl⟩)]
          exact .misread ordered next (.inr ⟨⟨file,read,named⟩,rfl⟩)
        | some name =>
          rw [downloadCurrentFile_eq rfl (found.trans read) named]
          exact .next ordered next read named
    | none =>
      rw [selectNextResourceToDownload_last package listed ordered next]
      change Continued platform answers context block message files context.ended.finishPackage
      rcases @finishPackage_cases context.ended block message files package listed with
        ⟨firmware,effects,kept,told,same⟩ | ⟨pointer,firmware,gone,same⟩
      · rw [same]
        exact .ended ordered next kept told
      · rw [same]
        exact .dangling ordered next firmware gone

end Package

end XivelyClient.Sft
