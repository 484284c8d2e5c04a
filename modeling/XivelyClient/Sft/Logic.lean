import XivelyClient.Sft.Message

/-! The secure file transfer of one context (`xi_sft_logic.c` and its helpers). The file system, the board and
the application answer each call as they like; what the transfer does to them is a list of effects. -/
namespace XivelyClient.Sft

/-- What the board and the build settle: the names of firmware, the checksum, `XI_SFT_FILE_CHUNK_SIZE`. -/
structure Platform where
  isThisFirmware : Name → Bool
  checksum : List UInt8 → List UInt8
  fileChunkSize : UInt32 := 1024

/-- The answers to one call. `order` and `names` are the two allocations of
`_xi_sft_order_resource_downloads`, `downloadOrder` what the board writes over the default order. A write that is answered OK
leaves out as many bytes at its end as `leavesOut` says, `revisionLeavesOut` for a revision. -/
structure Answers where
  names : Bool := true
  order : Bool := true
  downloadOrder : List Int := []
  accepts : Bool := true
  opens : Bool := true
  writes : Bool := true
  leavesOut : Nat := 0
  closes : Bool := true
  revisionOpens : Bool := true
  revisionWrites : Bool := true
  revisionLeavesOut : Nat := 0
  deriving DecidableEq

def Answers.wrote (answers : Answers) (bytes : List UInt8) : Option Nat :=
  if answers.writes then some (bytes.length - answers.leavesOut) else none

def Answers.wroteRevision (answers : Answers) (bytes : List UInt8) : Option Nat :=
  if answers.revisionWrites then some (bytes.length - answers.revisionLeavesOut) else none

structure FilePointer where
  block : Nat
  index : Nat
  deriving DecidableEq, Repr

/-- `opened` and `wrote` say which resource was meant and what became of it; a handle that is `none` is
invalid, and `written` is `none` for a write that failed. A message is one that is to be made and sent; what becomes of it does not
come back. `checksumFinal` names the file whose fingerprint is compared, `selected` marks a new
`update_current_file`. -/
inductive Effect
  | fileStatus (name revision : Name) (phase : FileStatusPhase) (code : FileStatusCode)
  | fileGetChunk (name revision : Name) (offset length : UInt32)
  | handleUrl (name : Name) (accepted : Bool)
  | selected (file : Option FilePointer)
  | opened (handle : Option Nat) (resource : Name)
  | wrote (handle : Option Nat) (resource : Name) (offset : UInt32) (bytes : List UInt8) (written : Option Nat)
  | closed (handle : Option Nat)
  | checksumInit
  | checksumUpdate (bytes : List UInt8)
  | checksumFinal (file : FileDesc)
  | packageDownloadFinished (firmware : Option Name)
  | packageDownloadFailure
  | messageFreed (block : Nat)
  deriving DecidableEq, Repr

/-- How the program may end: a file descriptor is read behind its list's end of life, `update_current_file` is
read while it is NULL, a NULL name goes to the board, a missing list is walked, a checksum is continued that
was not begun. -/
inductive Fault
  | freedFile | absentFile | nullName | nullList | nullChecksum
  deriving DecidableEq, Repr

/-- `xi_sft_context_t`. Addresses and handles are numbers that are given out once. `freed` tells that the
context is gone. -/
structure Context where
  fnSendMessage : Bool := true
  sftUrlHandlerCallback : Bool := false
  updateableFilesDownloadOrder : Option (List Int) := none
  updateMessageFua : Option (Nat × FileUpdateAvailable) := none
  updateCurrentFile : Option FilePointer := none
  updateFirmware : Option FilePointer := none
  updateFileHandle : Option Nat := none
  checksumContext : Option (List UInt8) := none
  nextBlock : Nat := 0
  nextHandle : Nat := 0
  freed : Bool := false
  fault : Option Fault := none
  effects : List Effect := []
  deriving DecidableEq

namespace Context

def emit (context : Context) (effects : List Effect) : Context := {context with effects := context.effects ++ effects}

def abort (context : Context) (fault : Fault) : Context := {context with fault := some fault}

def file (context : Context) (pointer : FilePointer) : Option FileDesc :=
  match context.updateMessageFua with
  | some (block,message) => if block = pointer.block then (message.list.getD [])[pointer.index]? else none
  | none => none

/-- `xi_control_message_create_file_status`; without a name or a revision there is no message. -/
def createFileStatus (file : FileDesc) (phase : FileStatusPhase) (code : FileStatusCode) : List Effect :=
  match file.name,file.revision with
  | some name,some revision => [.fileStatus name revision phase code]
  | _,_ => []

def createFileGetChunk (file : FileDesc) (offset length : UInt32) : List Effect :=
  match file.name,file.revision with
  | some name,some revision => [.fileGetChunk name revision offset length]
  | _,_ => []

def sendFileStatus (context : Context) (fileDesc : Option FilePointer) (phase : FileStatusPhase) (code : FileStatusCode) :
    Context :=
  if context.fnSendMessage then
    match fileDesc <|> context.updateCurrentFile with
    | some pointer =>
      match context.file pointer with
      | some file => context.emit (createFileStatus file phase code)
      | none => context.abort .freedFile
    | none => context
  else context

def sendFileGetChunk (platform : Platform) (context : Context) (offset length : UInt32) : Context :=
  if context.fnSendMessage then
    match context.updateCurrentFile with
    | some pointer =>
      match context.file pointer with
      | some file => context.emit (createFileGetChunk file offset (min platform.fileChunkSize length))
      | none => context.abort .freedFile
    | none => context
  else context

/-- An accepted URL download is reported, a rejected one too; MQTT is left where there is no link or the service allows
it. -/
def fetchFile (platform : Platform) (context : Context) (answers : Answers) (file : FileDesc) (name : Name) : Context :=
  let asked := file.downloadLink.isSome && context.sftUrlHandlerCallback
  let started := asked && answers.accepts
  let context := if asked then context.emit [.handleUrl name answers.accepts] else context
  let context := if asked && !started then context.sendFileStatus none .downloading .urldlRejected else context
  if started then context.sendFileStatus none .downloading .success
  else if file.downloadLink = none ∨ file.flagMqttDownloadAlsoSupported = true then
    context.sendFileGetChunk platform 0 file.sizeInBytes
  else context

def downloadCurrentFile (platform : Platform) (context : Context) (answers : Answers) : Context :=
  match context.updateCurrentFile with
  | none => context
  | some current =>
    match context.file current with
    | none => context.abort .freedFile
    | some file =>
      match file.name with
      | none => context.abort .nullName
      | some name =>
        {context with
          updateFirmware := if platform.isThisFirmware name then some current else context.updateFirmware}.fetchFile
          platform answers file name

/-- `_xi_sft_revision_write_string_to_file` opens, writes and closes a handle of its own. -/
def revisionWriteStringToFile (context : Context) (answers : Answers) (resource bytes : Name) : Context :=
  if answers.revisionOpens then
    {context with nextHandle := context.nextHandle + 1}.emit [.opened (some context.nextHandle) resource,
      .wrote (some context.nextHandle) resource 0 bytes (answers.wroteRevision bytes),.closed (some context.nextHandle)]
  else context.emit [.opened none resource]

/-- ".xirev" -/
def revisionSuffix : Name := [46,120,105,114,101,118]

/-- "firmware_update_revision.mailbox" -/
def revisionMailbox : Name :=
  [102,105,114,109,119,97,114,101,95,117,112,100,97,116,101,95,114,101,118,105,115,105,111,110,46,109,97,105,108,98,111,120]

/-- `_xi_sft_current_file_revision_handling`: the revision of a file is stored, that of firmware is left for its first
run. -/
def currentFileRevisionHandling (context : Context) (answers : Answers) : Context :=
  match context.updateCurrentFile with
  | none => context
  | some current =>
    match context.file current with
    | none => context.abort .freedFile
    | some file =>
      if context.updateFirmware ≠ some current then
        let context := context.sendFileStatus none .finished .success
        match file.name,file.revision with
        | some name,some revision => context.revisionWriteStringToFile answers (name ++ revisionSuffix) revision
        | _,_ => context
      else
        match file.name,file.revision with
        | some name,some revision => context.revisionWriteStringToFile answers revisionMailbox (name ++ [10] ++ revision)
        | _,_ => context

/-- `xi_control_message_free` of the package's message walks the list. -/
def freeUpdateMessage (context : Context) : Context :=
  match context.updateMessageFua with
  | none => context
  | some (block,message) =>
    if message.list = none ∧ message.listLen ≠ 0 then context.abort .nullList
    else {context with updateMessageFua := none}.emit [.messageFreed block]

def takeNext : Nat → List Int → Option (Nat × List Int)
  | 0,_ | _,[] => none
  | listLen + 1,entry :: order =>
    if 0 ≤ entry then some (entry.toNat,-1 :: order)
    else (takeNext listLen order).map fun (next,rest) => (next,entry :: rest)

/-- `_xi_sft_select_next_resource_to_download`; it fails without an order. -/
def selectNextResourceToDownload (context : Context) : Bool × Context :=
  match context.updateableFilesDownloadOrder with
  | none => (false,context)
  | some order =>
    match context.updateMessageFua with
    | none => (true,context)
    | some (block,message) =>
      if message.listLen ≠ 0 ∧ message.list = none then (true,context)
      else
        match takeNext message.listLen order with
        | some (next,rest) =>
          (true,{context with
            updateCurrentFile := some ⟨block,next⟩
            updateableFilesDownloadOrder := some rest}.emit [.selected (some ⟨block,next⟩)])
        | none => (true,{context with updateCurrentFile := none}.emit [.selected none])

/-- The end of a package: the application is told, and the message is freed. -/
def finishPackage (context : Context) : Context :=
  match context.updateFirmware with
  | none => (context.emit [.packageDownloadFinished none]).freeUpdateMessage
  | some firmware =>
    match context.file firmware with
    | none => context.abort .freedFile
    | some file =>
      let context := context.sendFileStatus (some firmware) .processing .success
      (context.emit [.packageDownloadFinished file.name]).freeUpdateMessage

def continuePackageDownload (platform : Platform) (context : Context) (answers : Answers) : Context :=
  let (ok,context) := context.selectNextResourceToDownload
  if ok then
    match context.updateCurrentFile with
    | some _ => context.downloadCurrentFile platform answers
    | none => context.finishPackage
  else context

/-- `_xi_sft_order_resource_downloads`: the board may change the default order, but not leave the list. -/
def orderResourceDownloads (context : Context) (answers : Answers) (listLen : Nat) : Bool × Context :=
  let order := (List.range listLen).map fun i : Nat => (answers.downloadOrder[i]?).getD (i : Int)
  if answers.names && answers.order && order.all (fun entry => 0 ≤ entry && entry < listLen) then
    (true,{context with updateableFilesDownloadOrder := some order})
  else (false,{context with updateableFilesDownloadOrder := none})

def onFileUpdateAvailable (platform : Platform) (context : Context) (answers : Answers) (message : FileUpdateAvailable) :
    Context :=
  let context := context.freeUpdateMessage
  if context.fault.isSome then context
  else
    let context := {context with
      updateMessageFua := some (context.nextBlock,message)
      nextBlock := context.nextBlock + 1}
    if 0 < message.listLen ∧ message.list ≠ none then
      let (ok,context) := context.orderResourceDownloads answers message.listLen
      if ok then context.continuePackageDownload platform answers else context
    else context

def openFirst (context : Context) (answers : Answers) (name : Name) : Bool × Context :=
  if answers.opens then
    (true,{context with
      updateFileHandle := some context.nextHandle
      nextHandle := context.nextHandle + 1
      checksumContext := some []}.emit [.opened (some context.nextHandle) name,.checksumInit])
  else (false,{context with updateFileHandle := none}.emit [.opened none name])

def processFileChunk (context : Context) (answers : Answers) (name : Name) (chunk : FileChunk) : FileStatusCode × Context :=
  let (opened,context) := if chunk.offset = 0 then context.openFirst answers name else (true,context)
  if !opened then (.fileOpen,context)
  else
    let context := context.emit [.wrote context.updateFileHandle name chunk.offset chunk.chunk (answers.wrote chunk.chunk)]
    if answers.writes then
      match context.checksumContext with
      | some fed =>
        (.success,{context with checksumContext := some (fed ++ chunk.chunk)}.emit [.checksumUpdate chunk.chunk])
      | none => (.success,context.abort .nullChecksum)
    else (.fileWrite,context)

def checksumFinal (platform : Platform) (context : Context) : FileStatusCode × Context :=
  match context.updateCurrentFile,context.checksumContext with
  | some current,some fed =>
    match context.file current with
    | none => (.fileChecksumMismatch,context.abort .freedFile)
    | some file =>
      (if platform.checksum fed = file.fingerprint then .success else .fileChecksumMismatch,
        {context with checksumContext := none}.emit [.checksumFinal file])
  | _,_ => (.fileChecksumMismatch,context)

def finishFile (platform : Platform) (context : Context) (answers : Answers) : Context :=
  let (code,context) := context.checksumFinal platform
  let context := context.sendFileStatus none .downloaded code
  if code ≠ .success then context.emit [.packageDownloadFailure]
  else
    let context := {context.emit [.closed context.updateFileHandle] with updateFileHandle := none}
    if answers.closes then
      (context.currentFileRevisionHandling answers).continuePackageDownload platform answers
    else context.sendFileStatus none .processing .fileClose

/-- FILE_CHUNK for the file under download. The sum of offset and length has 32 bits. -/
def onCurrentFileChunk (platform : Platform) (context : Context) (answers : Answers) (file : FileDesc) (name : Name)
    (chunk : FileChunk) : Context :=
  let (code,context) := context.processFileChunk answers name chunk
  if context.fault.isSome then context
  else if code ≠ .success then
    (context.sendFileStatus none .processing code).emit [.packageDownloadFailure]
  else
    let allDownloadedBytes := chunk.offset + chunk.length
    if allDownloadedBytes < file.sizeInBytes then
      context.sendFileGetChunk platform allDownloadedBytes (file.sizeInBytes - allDownloadedBytes)
    else context.finishFile platform answers

def onFileChunk (platform : Platform) (context : Context) (answers : Answers) (chunk : FileChunk) : Context :=
  match context.updateCurrentFile with
  | none => context.sendFileStatus none .downloaded .unexpectedFileChunk
  | some current =>
    match context.file current with
    | none => context.abort .freedFile
    | some file =>
      match file.name with
      | none => context.sendFileStatus none .downloaded .unexpectedFileChunk
      | some name =>
        if chunk.name = some name then context.onCurrentFileChunk platform answers file name chunk
        else context.sendFileStatus none .downloaded .unexpectedFileChunk

/-- `_xi_sft_on_file_downloaded_task`: what the application reports of a file, behind the event queue. -/
def onFileDownloadedTask (platform : Platform) (context : Context) (answers : Answers) (filename : Option Name)
    (successfully : Bool) : Context :=
  if successfully then
    match context.updateCurrentFile with
    | none => context.sendFileStatus none .downloaded .urldlUnexpectedFileName
    | some current =>
      match context.file current with
      | none => context.abort .freedFile
      | some file =>
        if file.name.isSome ∧ filename = file.name then
          ((context.sendFileStatus none .downloaded .success).currentFileRevisionHandling answers).continuePackageDownload
            platform answers
        else context.sendFileStatus none .downloaded .urldlUnexpectedFileName
  else
    let context := context.sendFileStatus none .downloaded .urldlFailed
    if context.fault.isSome then context
    else
      match context.updateCurrentFile with
      | none => context.abort .absentFile
      | some current =>
        match context.file current with
        | none => context.abort .freedFile
        | some file =>
          if file.flagMqttDownloadAlsoSupported then context.sendFileGetChunk platform 0 file.sizeInBytes else context

def freeContext (platform : Platform) (context : Context) : Context :=
  let (_,context) := context.checksumFinal platform
  if context.fault.isSome then context
  else
    let context := (context.emit [.closed context.updateFileHandle]).freeUpdateMessage
    if context.fault.isSome then context
    else {context with
      updateableFilesDownloadOrder := none
      updateCurrentFile := none
      updateFirmware := none
      updateFileHandle := none
      freed := true}

end Context

/-- `xi_sft_make_context`, with somebody to send to or not, and with a URL handler or not. -/
def makeContext (fnSendMessage sftUrlHandlerCallback : Bool) : Context :=
  {fnSendMessage := fnSendMessage,sftUrlHandlerCallback := sftUrlHandlerCallback}

inductive Event
  | fileUpdateAvailable (message : FileUpdateAvailable)
  | fileChunk (chunk : FileChunk)
  | unhandledMessage
  | fileDownloaded (filename : Option Name) (successfully : Bool)
  | freeContext
  deriving DecidableEq

/-- One message, one report of the application, or the end of the context, with the answers to it. A fault ends the
program. -/
def step (platform : Platform) (context : Context) (call : Answers × Event) : Context :=
  if context.fault.isSome || context.freed then context
  else
    match call.2 with
    | .fileUpdateAvailable message => context.onFileUpdateAvailable platform call.1 message
    | .fileChunk chunk => context.onFileChunk platform call.1 chunk
    | .unhandledMessage => context
    | .fileDownloaded filename successfully => context.onFileDownloadedTask platform call.1 filename successfully
    | .freeContext => context.freeContext platform

end XivelyClient.Sft
