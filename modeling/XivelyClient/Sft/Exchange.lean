import Mathlib.Algebra.GroupWithZero.Nat
import XivelyClient.Sft.DownloadOrder
import XivelyClient.Lib.Descent
import XivelyClient.Lib.WriteCursor

/-! The file transfer between the device and the service. The service answers the requests in their order with bytes of the file, as
many as it was asked for (`xi_control_message_sft_generate_reply_FILE_CHUNK`) or fewer. -/
namespace XivelyClient.Sft

structure Request where
  name : Name
  offset : UInt32
  length : UInt32
  deriving DecidableEq

/-- What the calls leave outside of the context: the requests that are on their way, the files, and what the application is told of
packages. -/
structure Scene where
  waiting : List Request := []
  disk : Name → Option (List UInt8)
  told : List Effect := []

/-- A file is cut when it is opened, and written at the offset of the bytes. -/
def Scene.see (scene : Scene) : Effect → Scene
  | .fileGetChunk name _ offset length => {scene with waiting := scene.waiting ++ [⟨name,offset,length⟩]}
  | .opened (some _) resource => {scene with disk := Function.update scene.disk resource (some [])}
  | .wrote (some _) resource offset bytes (some count) =>
    {scene with
      disk := Function.update scene.disk resource
        (some (WriteCursor.overwrite ((scene.disk resource).getD []) offset.toNat (bytes.take count)))}
  | .packageDownloadFinished firmware => {scene with told := scene.told ++ [.packageDownloadFinished firmware]}
  | .packageDownloadFailure => {scene with told := scene.told ++ [.packageDownloadFailure]}
  | _ => scene

structure Exchange where
  context : Context
  scene : Scene

/-- The answer to a request. It is not empty unless it has to be. -/
def reply (contents : Name → List UInt8) (request : Request) (more : Nat) : FileChunk where
  name := some request.name
  offset := request.offset
  chunk := ((contents request.name).drop request.offset.toNat).take (min request.length.toNat (more + 1))
  small := by
    have := request.length.toNat_lt
    rw [List.length_take]
    omega

inductive Input
  | deliver (answers : Answers) (more : Nat)
  | stray (answers : Answers) (event : Event)

def Input.delivers : Input → Bool
  | .deliver _ _ => true
  | .stray _ _ => false

namespace Exchange

def call (platform : Platform) (exchange : Exchange) (call : Answers × Event) : Exchange where
  context := Sft.step platform exchange.context call
  scene := ((Sft.step platform exchange.context call).effects.drop exchange.context.effects.length).foldl Scene.see exchange.scene

def step (platform : Platform) (contents : Name → List UInt8) (exchange : Exchange) : Input → Exchange
  | .deliver answers more =>
    match exchange.scene.waiting with
    | [] => exchange
    | request :: waiting =>
      call platform ⟨exchange.context,{exchange.scene with waiting := waiting}⟩ (answers,.fileChunk (reply contents request more))
  | .stray answers event => exchange.call platform (answers,event)

end Exchange

/-- Messages and reports that have nothing to do with the files of the package. -/
def Stray (files : List FileDesc) : Event → Prop
  | .unhandledMessage => True
  | .fileChunk chunk => ∀ file ∈ files, chunk.name ≠ file.name
  | .fileDownloaded filename successfully => successfully = true ∧ ∀ file ∈ files, filename ≠ file.name
  | _ => False

/-- The file system does what it is asked for. -/
def Input.Allowed (files : List FileDesc) : Input → Prop
  | .deliver answers _ => answers.opens = true ∧ answers.writes = true ∧ answers.leavesOut = 0 ∧ answers.closes = true
  | .stray _ event => Stray files event

/-- The file of the service that a description is about. -/
structure Genuine (platform : Platform) (contents : Name → List UInt8) (file : FileDesc) (name revision : Name) : Prop where
  named : file.name = some name
  revised : file.revision = some revision
  size : file.sizeInBytes.toNat = (contents name).length
  fingerprint : platform.checksum (contents name) = file.fingerprint
  mqtt : file.downloadLink = none ∨ file.flagMqttDownloadAlsoSupported = true

/-- A package of the service. None of its files has the name of a file for a revision. -/
structure Deliverable (platform : Platform) (contents : Name → List UInt8) (files : List FileDesc) : Prop where
  genuine : ∀ file ∈ files, ∃ name revision, Genuine platform contents file name revision
  apart : ∀ file ∈ files, ∀ other ∈ files, ∀ name otherName, file.name = some name → other.name = some otherName →
    name ≠ otherName ++ Context.revisionSuffix ∧ name ≠ Context.revisionMailbox

/-- A context that may begin a package over MQTT. -/
structure Ready (context : Context) : Prop where
  sound : context.fault = none
  alive : context.freed = false
  sends : context.fnSendMessage = true
  plain : context.sftUrlHandlerCallback = false
  firmware : context.updateFirmware = none
  listed : ∀ block message, context.updateMessageFua = some (block,message) → message.list ≠ none

def namesOf (files : List FileDesc) (entries : List Int) : List Name :=
  entries.filterMap fun entry => files[entry.toNat]?.bind FileDesc.name

/-- How many answers the file may take. -/
def FileDesc.pieces (file : FileDesc) : Nat := max 1 file.sizeInBytes.toNat

def effort (files : List FileDesc) (entries : List Int) : Nat :=
  (entries.map fun entry => (files[entry.toNat]?.map FileDesc.pieces).getD 0).sum

/-- All the files of the order are there as the service has them, and the application has been told. -/
structure Complete (contents : Name → List UInt8) (files : List FileDesc) (order : List Int) (exchange : Exchange) : Prop where
  sound : exchange.context.fault = none
  alive : exchange.context.freed = false
  current : exchange.context.updateCurrentFile = none
  released : exchange.context.updateMessageFua = none
  waiting : exchange.scene.waiting = []
  told : ∃ firmware, exchange.scene.told = [.packageDownloadFinished firmware]
  stored : ∀ name ∈ namesOf files order, exchange.scene.disk name = some (contents name)

/-- Nothing has gone wrong, and no more than one request is on its way. -/
structure Undisturbed (exchange : Exchange) : Prop where
  sound : exchange.context.fault = none
  unfailed : Effect.packageDownloadFailure ∉ exchange.scene.told
  single : exchange.scene.waiting.length ≤ 1

section Scenes

variable {before between after context : Context} {scene scene' scene'' : Scene} {effects : List Effect}

/-- What was added to the effects leads from one scene to the other. -/
def Shows (before : Context) (scene : Scene) (after : Context) (scene' : Scene) : Prop :=
  ∃ more, after.effects = before.effects ++ more ∧ more.foldl Scene.see scene = scene'

/-- Nothing of it is to be seen outside. -/
def Effect.silent : Effect → Bool
  | .fileGetChunk _ _ _ _ | .opened (some _) _ | .wrote (some _) _ _ _ (some _) | .packageDownloadFinished _ | .packageDownloadFailure => false
  | _ => true

theorem Shows.refl (context : Context) (scene : Scene) : Shows context scene context scene := ⟨[],(List.append_nil _).symm,rfl⟩

theorem Shows.trans (first : Shows before scene between scene') (second : Shows between scene' after scene'') :
    Shows before scene after scene'' := by
  obtain ⟨more,same,seen⟩ := first
  obtain ⟨more',same',seen'⟩ := second
  refine ⟨more ++ more',by rw [same',same,List.append_assoc],?_⟩
  rw [List.foldl_append,seen,seen']

theorem Shows.emit (effects : List Effect) (scene : Scene) : Shows context scene (context.emit effects) (effects.foldl Scene.see scene) :=
  ⟨effects,rfl,rfl⟩

theorem see_silent {effect : Effect} (silent : effect.silent = true) : scene.see effect = scene := by
  cases effect with
  | opened handle resource =>
    cases handle with
    | none => rfl
    | some handle => exact (Bool.false_ne_true silent).elim
  | wrote handle resource offset bytes written =>
    cases handle with
    | none => rfl
    | some handle =>
      cases written with
      | none => rfl
      | some count => exact (Bool.false_ne_true silent).elim
  | fileGetChunk | packageDownloadFinished | packageDownloadFailure => exact (Bool.false_ne_true silent).elim
  | _ => rfl

theorem foldl_silent (silent : effects.all Effect.silent = true) : effects.foldl Scene.see scene = scene := by
  induction effects with
  | nil => rfl
  | cons effect effects ih =>
    rw [List.all_cons,Bool.and_eq_true] at silent
    rw [List.foldl_cons,see_silent silent.1]
    exact ih silent.2

theorem Shows.silent (silent : Appends Effect.silent before after) : Shows before scene after scene := by
  obtain ⟨more,same,all⟩ := silent
  exact ⟨more,same,foldl_silent all⟩

theorem reports_silent (file : FileDesc) (phase : FileStatusPhase) (code : FileStatusCode) :
    (context.reports file phase code).all Effect.silent = true := reports_all context file phase code fun _ _ => rfl

theorem call_eq {platform : Platform} {call : Answers × Event} (same : Sft.step platform context call = after)
    (shows : Shows context scene after scene') : Exchange.call platform ⟨context,scene⟩ call = ⟨after,scene'⟩ := by
  obtain ⟨more,added,seen⟩ := shows
  simp only [Exchange.call,same,added,List.drop_left,seen]

end Scenes

section Chunks

variable {platform : Platform} {contents : Name → List UInt8} {file : FileDesc} {name revision : Name} {context : Context} {scene : Scene}
  {done : Nat}

/-- The request for what is left of a file behind the bytes that are there. -/
def nextRequest (platform : Platform) (file : FileDesc) (name : Name) (done : Nat) : Request :=
  ⟨name,UInt32.ofNat done,min platform.fileChunkSize (file.sizeInBytes - UInt32.ofNat done)⟩

theorem toNat_min (a b : UInt32) : (min a b).toNat = min a.toNat b.toNat := by
  rw [show min a b = if a ≤ b then a else b from rfl]
  split
  · next le =>
    rw [UInt32.le_iff_toNat_le] at le
    exact (Nat.min_eq_left le).symm
  · next above =>
    rw [UInt32.le_iff_toNat_le] at above
    exact (Nat.min_eq_right (by omega)).symm

/-- The bytes that come for a request, and how far the file has come with them. -/
structure Came (contents : Name → List UInt8) (file : FileDesc) (name : Name) (done count : Nat) (chunk : FileChunk) : Prop where
  offset : chunk.offset.toNat = done
  bytes : chunk.chunk = ((contents name).drop done).take count
  inside : done + count ≤ (contents name).length
  some' : done < (contents name).length → 0 < count
  total : (chunk.offset + chunk.length).toNat = done + count

theorem reply_came (genuine : Genuine platform contents file name revision) (chunked : 0 < platform.fileChunkSize.toNat)
    (short : done ≤ (contents name).length) (more : Nat) :
    ∃ count, Came contents file name done count (reply contents (nextRequest platform file name done) more) := by
  have size := genuine.size
  have limit := file.sizeInBytes.toNat_lt
  have at' : (UInt32.ofNat done).toNat = done := UInt32.toNat_ofNat_of_lt' (by rw [UInt32.size]; omega)
  have left : (file.sizeInBytes - UInt32.ofNat done).toNat = (contents name).length - done := by
    rw [UInt32.toNat_sub_of_le _ _ (UInt32.le_iff_toNat_le.mpr (by omega)),at',size]
  have asked : (nextRequest platform file name done).length.toNat = min platform.fileChunkSize.toNat ((contents name).length - done) := by
    rw [nextRequest,toNat_min,left]
  let count := min (nextRequest platform file name done).length.toNat (more + 1)
  have inside : done + count ≤ (contents name).length := by
    simp only [count,asked]
    omega
  have bytes : (reply contents (nextRequest platform file name done) more).chunk = ((contents name).drop done).take count := by
    rw [reply]
    simp only [nextRequest,at']
    rfl
  have length : (reply contents (nextRequest platform file name done) more).length.toNat = count := by
    rw [FileChunk.length,UInt32.toNat_ofNat_of_lt' (FileChunk.small _),bytes,List.length_take,List.length_drop]
    omega
  refine ⟨count,at',bytes,inside,fun behind => ?_,?_⟩
  · simp only [count,asked]
    omega
  · rw [UInt32.toNat_add,length,show (reply contents (nextRequest platform file name done) more).offset.toNat = done from at']
    exact Nat.mod_eq_of_lt (by omega)

theorem overwrite_take (count : Nat) (bytes : List UInt8) (inside : done + count ≤ bytes.length) :
    WriteCursor.overwrite (bytes.take done) done ((bytes.drop done).take count) = bytes.take (done + count) := by
  have behind : (bytes.take done).drop (done + ((bytes.drop done).take count).length) = [] := by
    apply List.drop_eq_nil_of_le
    rw [List.length_take,List.length_take,List.length_drop]
    omega
  rw [WriteCursor.overwrite,behind,List.append_nil,List.take_take,Nat.min_self,List.take_add]

/-- As much of the file as there is: nothing is known of it before its first byte. -/
structure Partly (contents : Name → List UInt8) (name : Name) (done : Nat) (context : Context) (scene : Scene) : Prop where
  handle : done ≠ 0 → context.updateFileHandle.isSome
  fed : done ≠ 0 → context.checksumContext = some ((contents name).take done)
  part : done ≠ 0 → scene.disk name = some ((contents name).take done)

def Scene.with (scene : Scene) (name : Name) (bytes : List UInt8) : Scene :=
  {scene with disk := Function.update scene.disk name (some bytes)}

/-- The first chunk begins the file, and a later one finds it begun. -/
theorem begun_shows {count : Nat} {chunk : FileChunk} (came : Came contents file name done count chunk)
    (partly : Partly contents name done context scene) :
    (context.begun name chunk).updateFileHandle.isSome ∧
      (context.begun name chunk).checksumContext = some ((contents name).take done) ∧
        Shows context scene (context.begun name chunk) (scene.with name ((contents name).take done)) := by
  have first : chunk.offset = 0 ↔ done = 0 := by rw [← came.offset,← UInt32.toNat_inj]; rfl
  by_cases zero : done = 0
  · have begun : context.begun name chunk = {context with
        updateFileHandle := some context.nextHandle
        nextHandle := context.nextHandle + 1
        checksumContext := some []}.emit [.opened (some context.nextHandle) name,.checksumInit] := if_pos (first.mpr zero)
    rw [begun,zero,List.take_zero]
    exact ⟨rfl,rfl,_,rfl,rfl⟩
  · rw [Context.begun,if_neg (fun same => zero (first.mp same))]
    refine ⟨partly.handle zero,partly.fed zero,?_⟩
    have same : scene.with name ((contents name).take done) = scene := by
      rw [Scene.with,← partly.part zero,Function.update_eq_self]
    rw [same]
    exact .refl context scene

/-- A chunk that is taken makes the file longer, and its checksum goes on. -/
theorem taken_shows {count : Nat} {chunk : FileChunk} (writes : answers.writes = true) (whole : answers.leavesOut = 0)
    (came : Came contents file name done count chunk) (partly : Partly contents name done context scene) :
    ∃ fed, (context.begun name chunk).checksumContext = some fed ∧ fed ++ chunk.chunk = (contents name).take (done + count) ∧
      (context.taken answers name chunk fed).updateFileHandle.isSome ∧
      (context.taken answers name chunk fed).checksumContext = some ((contents name).take (done + count)) ∧
        Shows context scene (context.taken answers name chunk fed) (scene.with name ((contents name).take (done + count))) := by
  obtain ⟨handle,fed,shows⟩ := @begun_shows contents file name context scene done count chunk came partly
  have further : (contents name).take done ++ chunk.chunk = (contents name).take (done + count) := by rw [came.bytes,List.take_add]
  refine ⟨_,fed,further,handle,congrArg some further,shows.trans ⟨_,List.append_assoc _ _ _,?_⟩⟩
  obtain ⟨number,opened⟩ := Option.isSome_iff_exists.mp handle
  have written : WriteCursor.overwrite ((contents name).take done) chunk.offset.toNat chunk.chunk = (contents name).take (done + count) := by
    rw [came.offset,came.bytes]
    exact overwrite_take count (contents name) came.inside
  have all : answers.wrote chunk.chunk = some chunk.chunk.length := by
    unfold Answers.wrote
    rw [if_pos writes,whole,Nat.sub_zero]
  simp only [opened,all,List.cons_append,List.nil_append,List.foldl_cons,List.foldl_nil,Scene.see,Scene.with,Function.update_self,
    Option.getD_some,List.take_length,written,Function.update_idem]

theorem revisionWrite_shows (answers : Answers) (resource bytes : Name) :
    ∃ scene', Shows context scene (context.revisionWriteStringToFile answers resource bytes) scene' ∧ scene'.waiting = scene.waiting ∧
      scene'.told = scene.told ∧ ∀ other, other ≠ resource → scene'.disk other = scene.disk other := by
  unfold Context.revisionWriteStringToFile
  split
  · refine ⟨_,⟨_,rfl,rfl⟩,?_⟩
    unfold Answers.wroteRevision
    cases answers.revisionWrites with
    | true =>
      refine ⟨rfl,rfl,fun other apart => ?_⟩
      simp [Scene.see,Function.update_of_ne apart]
    | false =>
      refine ⟨rfl,rfl,fun other apart => ?_⟩
      simp [Scene.see,Function.update_of_ne apart]
  · exact ⟨_,⟨_,rfl,rfl⟩,rfl,rfl,fun _ _ => rfl⟩

/-- The revision of a file is no other file of a package. -/
theorem revised_shows (answers : Answers) (read : context.currentFile = some file) (named : file.name = some name)
    (revised : file.revision = some revision) :
    ∃ scene', Shows context scene (context.currentFileRevisionHandling answers) scene' ∧ scene'.waiting = scene.waiting ∧
      scene'.told = scene.told ∧ ∀ other, other ≠ name ++ Context.revisionSuffix → other ≠ Context.revisionMailbox →
        scene'.disk other = scene.disk other := by
  obtain ⟨current,same,found⟩ := currentFile_eq read
  unfold Context.currentFileRevisionHandling
  simp only [same,found,named,revised]
  split
  · rw [sendFileStatus_current _ _ read]
    obtain ⟨scene',shows,waiting,told,disk⟩ := @revisionWrite_shows (context.emit (context.reports file .finished .success)) scene answers
      (name ++ Context.revisionSuffix) revision
    have said := @Shows.emit context (context.reports file .finished .success) scene
    rw [foldl_silent (reports_silent file .finished .success)] at said
    exact ⟨scene',said.trans shows,waiting,told,fun other apart _ => disk other apart⟩
  · obtain ⟨scene',shows,waiting,told,disk⟩ := @revisionWrite_shows context scene answers Context.revisionMailbox (name ++ [10] ++ revision)
    exact ⟨scene',shows,waiting,told,fun other _ apart => disk other apart⟩

theorem revised_alive (answers : Answers) (read : context.currentFile = some file) :
    (context.currentFileRevisionHandling answers).fault = context.fault ∧
      (context.currentFileRevisionHandling answers).freed = context.freed := by
  obtain ⟨status,effects,next,_,_,_,same⟩ := @currentFileRevisionHandling_cases context file answers read
  rw [same]
  exact ⟨rfl,rfl⟩

end Chunks

section Package

variable {platform : Platform} {contents : Name → List UInt8} {files : List FileDesc} {message : FileUpdateAvailable} {block : Nat}
  {order : List Int} {context : Context} {scene : Scene} {used done : Nat}

/-- A package of which so many files have been selected. -/
structure Underway (message : FileUpdateAvailable) (block : Nat) (order : List Int) (used : Nat) (context : Context) (scene : Scene) : Prop where
  sound : context.fault = none
  alive : context.freed = false
  sends : context.fnSendMessage = true
  plain : context.sftUrlHandlerCallback = false
  package : context.updateMessageFua = some (block,message)
  ordered : context.updateableFilesDownloadOrder = some (remaining order used)
  firmware : ∀ pointer, context.updateFirmware = some pointer → (context.file pointer).isSome
  untold : scene.told = []

/-- Nothing is asked for, and all that was selected has arrived. -/
structure Arrear (contents : Name → List UInt8) (files : List FileDesc) (order : List Int) (used : Nat) (scene : Scene) : Prop where
  waiting : scene.waiting = []
  stored : ∀ name ∈ namesOf files (order.take used), scene.disk name = some (contents name)

/-- The file under download, with the request for the rest of it on its way. -/
structure Fetching (platform : Platform) (contents : Name → List UInt8) (files : List FileDesc) (order : List Int) (block used done : Nat)
    (context : Context) (scene : Scene) (entry : Int) (file : FileDesc) (name revision : Name) : Prop where
  selected : order[used]? = some entry
  listed : files[entry.toNat]? = some file
  current : context.updateCurrentFile = some ⟨block,entry.toNat⟩
  genuine : Genuine platform contents file name revision
  waiting : scene.waiting = [nextRequest platform file name done]
  short : done < file.pieces
  partly : Partly contents name done context scene
  stored : ∀ other ∈ namesOf files (order.take used), other ≠ name → scene.disk other = some (contents other)

/-- A download that goes on, and how many answers it may still take. -/
inductive Within (platform : Platform) (contents : Name → List UInt8) (files : List FileDesc) (message : FileUpdateAvailable) (block : Nat)
    (order : List Int) (left : Nat) : Exchange → Prop
  | fetching {used done : Nat} {context : Context} {scene : Scene} {entry : Int} {file : FileDesc} {name revision : Name}
    (underway : Underway message block order (used + 1) context scene)
    (fetching : Fetching platform contents files order block used done context scene entry file name revision)
    (count : left = effort files (order.drop used) - done) : Within platform contents files message block order left ⟨context,scene⟩

/-- The board's order stays inside the list of the package, whose files the service has. -/
structure Orderly (platform : Platform) (contents : Name → List UInt8) (files : List FileDesc) (message : FileUpdateAvailable)
    (order : List Int) : Prop where
  listed : message.list = some files
  length : order.length = message.listLen
  inside : ∀ entry ∈ order, 0 ≤ entry ∧ entry < files.length
  deliverable : Deliverable platform contents files
  chunked : 0 < platform.fileChunkSize.toNat

theorem requests_eq {file : FileDesc} {name revision : Name} (sends : context.fnSendMessage = true) (named : file.name = some name)
    (revised : file.revision = some revision) (offset length : UInt32) :
    context.requests platform file offset length = [.fileGetChunk name revision offset (min platform.fileChunkSize length)] := by
  rw [Context.requests,if_pos sends,Context.createFileGetChunk,named,revised]

theorem next_selected (orderly : Orderly platform contents files message order) {index : Nat} {rest : List Int}
    (next : Context.takeNext message.listLen (remaining order used) = some (index,rest)) :
    ∃ entry, order[used]? = some entry ∧ entry.toNat < files.length ∧ index = entry.toNat ∧ rest = remaining order (used + 1) := by
  have left : used < order.length := by
    by_contra done
    rw [← orderly.length,takeNext_done order used (Nat.le_of_not_lt done)] at next
    cases next
  have entry := orderly.inside _ (List.getElem_mem left)
  rw [← orderly.length,takeNext_remaining order used left entry.1,Option.some.injEq,Prod.mk.injEq] at next
  exact ⟨order[used],List.getElem?_eq_getElem left,by omega,next.1.symm,next.2.symm⟩

/-- The next file of the order is asked for from its beginning, or the package is at its end. -/
theorem continued (orderly : Orderly platform contents files message order) (underway : Underway message block order used context scene)
    (arrear : Arrear contents files order used scene) (answers : Answers) :
    ∃ scene', Shows context scene (context.continuePackageDownload platform answers) scene' ∧
      (Within platform contents files message block order (effort files (order.drop used))
          ⟨context.continuePackageDownload platform answers,scene'⟩ ∨
        Complete contents files order ⟨context.continuePackageDownload platform answers,scene'⟩) := by
  have cases' := @continuePackageDownload_cases platform context answers block message files underway.package orderly.listed
  generalize context.continuePackageDownload platform answers = after at cases' ⊢
  have scanned (order' : List Int) (ordered : context.updateableFilesDownloadOrder = some order') : remaining order used = order' :=
    Option.some.inj (underway.ordered.symm.trans ordered)
  cases cases' with
  | unordered unordered =>
    rw [underway.ordered] at unordered
    cases unordered
  | @next order' rest index file name ordered next read named =>
    obtain rfl := scanned _ ordered
    obtain ⟨entry,selected,below,rfl,rfl⟩ := next_selected orderly next
    obtain ⟨name',revision,genuine⟩ := orderly.deliverable.genuine file (List.mem_of_getElem? read)
    obtain rfl : name' = name := Option.some.inj (genuine.named.symm.trans named)
    have asks : context.fetches platform answers file name' = [.fileGetChunk name' revision 0 (min platform.fileChunkSize file.sizeInBytes)] := by
      simp only [Context.fetches,underway.plain,Bool.and_false,Bool.false_and,Bool.false_eq_true,if_false,if_pos genuine.mqtt,
        List.nil_append]
      exact requests_eq underway.sends named genuine.revised 0 file.sizeInBytes
    refine ⟨{scene with waiting := scene.waiting ++ [nextRequest platform file name' 0]},?_,
      .inl (@Within.fetching platform contents files message block order _ used 0 _ _ entry file name' revision ?_ ?_ rfl)⟩
    · rw [asks]
      refine ⟨_,List.append_assoc _ _ _,?_⟩
      simp only [List.cons_append,List.nil_append,List.foldl_cons,List.foldl_nil,Scene.see,nextRequest]
      simp
    · refine ⟨underway.sound,underway.alive,underway.sends,underway.plain,underway.package,rfl,?_,underway.untold⟩
      intro pointer same
      have file_same : ∀ pointer, (((context.chosen ⟨block,entry.toNat⟩ (remaining order (used + 1))).marked platform name'
          ⟨block,entry.toNat⟩).emit (context.fetches platform answers file name')).file pointer = context.file pointer := fun _ => rfl
      rw [file_same]
      by_cases firmware : platform.isThisFirmware name' = true
      · have own : some ⟨block,entry.toNat⟩ = some pointer := by
          rw [← same]
          exact (if_pos firmware).symm
        cases own
        rw [file_eq underway.package orderly.listed,read]
        rfl
      · refine underway.firmware pointer ?_
        rw [← same]
        exact (if_neg firmware).symm
    · refine ⟨selected,read,rfl,genuine,by simp [arrear.waiting],?_,⟨fun zero => (zero rfl).elim,
        fun zero => (zero rfl).elim,fun zero => (zero rfl).elim⟩,fun other member _ => arrear.stored other member⟩
      exact Nat.lt_of_lt_of_le Nat.one_pos (Nat.le_max_left _ _)
  | @misread order' rest index fault ordered next cause =>
    obtain rfl := scanned _ ordered
    obtain ⟨entry,selected,below,rfl,rfl⟩ := next_selected orderly next
    rcases cause with ⟨gone,_⟩ | ⟨⟨file,read,unnamed⟩,_⟩
    · rw [List.getElem?_eq_getElem below] at gone
      cases gone
    · obtain ⟨name,revision,genuine⟩ := orderly.deliverable.genuine file (List.mem_of_getElem? read)
      rw [genuine.named] at unnamed
      cases unnamed
  | @ended order' effects firmware ordered last read told =>
    obtain rfl := scanned _ ordered
    have all : order.length ≤ used := by
      by_contra left
      have left := Nat.lt_of_not_le left
      rw [← orderly.length,takeNext_remaining order used left (orderly.inside _ (List.getElem_mem left)).1] at last
      cases last
    have quiet : effects.all Effect.silent = true := by
      rcases told with rfl | ⟨file,rfl⟩
      · rfl
      · exact reports_silent file .processing .success
    refine ⟨{scene with told := [.packageDownloadFinished firmware]},⟨_,List.append_assoc _ _ _,?_⟩,.inr ?_⟩
    · rw [List.foldl_append,List.foldl_append,foldl_silent quiet]
      simp [Scene.see,underway.untold]
    · refine ⟨underway.sound,underway.alive,rfl,rfl,arrear.waiting,⟨firmware,rfl⟩,?_⟩
      have stored := arrear.stored
      rwa [List.take_of_length_le all] at stored
  | dangling ordered last firmware gone =>
    have kept := underway.firmware _ firmware
    rw [gone] at kept
    cases kept

theorem Underway.holds {after : Context} {scene' : Scene} (underway : Underway message block order used context scene)
    (holds : Holds context after) (fault : after.fault = context.fault) (freed : after.freed = context.freed)
    (told : scene'.told = scene.told) : Underway message block order used after scene' where
  sound := fault.trans underway.sound
  alive := freed.trans underway.alive
  sends := holds.fnSendMessage.trans underway.sends
  plain := holds.sftUrlHandlerCallback.trans underway.plain
  package := holds.updateMessageFua.trans underway.package
  ordered := holds.order.trans underway.ordered
  firmware pointer same := by
    rw [holds.file]
    exact underway.firmware pointer (holds.updateFirmware.symm.trans same)
  untold := told.trans underway.untold

theorem taken_freed {name : Name} {chunk : FileChunk} {fed : List UInt8} : (context.taken answers name chunk fed).freed = context.freed := by
  unfold Context.taken Context.written Context.begun
  split <;> rfl

theorem shut_silent {name : Name} {chunk : FileChunk} {fed : List UInt8} (file : FileDesc) :
    Appends Effect.silent (context.taken answers name chunk fed) (context.shut answers name chunk fed file) := by
  have checked : Appends Effect.silent (context.taken answers name chunk fed) (context.verified answers name chunk fed file) := ⟨_,rfl,rfl⟩
  exact (checked.trans (.emit (reports_silent file .downloaded .success))).trans ⟨_,rfl,rfl⟩

theorem mem_namesOf {name : Name} {entries : List Int} (member : name ∈ namesOf files entries) :
    ∃ file ∈ files, file.name = some name := by
  obtain ⟨entry,_,found⟩ := List.mem_filterMap.mp member
  obtain ⟨file,read,named⟩ := Option.bind_eq_some_iff.mp found
  exact ⟨file,List.mem_of_getElem? read,named⟩

theorem namesOf_succ {entry : Int} {file : FileDesc} {name other : Name} (selected : order[used]? = some entry)
    (listed : files[entry.toNat]? = some file) (named : file.name = some name) (member : other ∈ namesOf files (order.take (used + 1))) :
    other ∈ namesOf files (order.take used) ∨ other = name := by
  rw [List.take_add_one,selected,namesOf,List.filterMap_append,List.mem_append] at member
  refine member.imp_right fun last => ?_
  simpa [listed,named,eq_comm] using last

theorem effort_drop {entry : Int} {file : FileDesc} (selected : order[used]? = some entry) (listed : files[entry.toNat]? = some file) :
    effort files (order.drop used) = file.pieces + effort files (order.drop (used + 1)) := by
  obtain ⟨left,rfl⟩ := List.getElem?_eq_some_iff.mp selected
  rw [List.drop_eq_getElem_cons left,effort,List.map_cons,List.sum_cons,listed]
  rfl

/-- An answer brings the file further, or to its end, and then to the next one or to the end of the package. -/
theorem delivered {entry : Int} {file : FileDesc} {name revision : Name} (orderly : Orderly platform contents files message order)
    (underway : Underway message block order (used + 1) context scene)
    (fetching : Fetching platform contents files order block used done context scene entry file name revision) {answers : Answers}
    (opens : answers.opens = true) (writes : answers.writes = true) (unstopped : answers.leavesOut = 0) (closes : answers.closes = true)
    (more : Nat) :
    Complete contents files order (Exchange.step platform contents ⟨context,scene⟩ (.deliver answers more)) ∨
      ∃ m < effort files (order.drop used) - done,
        Within platform contents files message block order m (Exchange.step platform contents ⟨context,scene⟩ (.deliver answers more)) := by
  have genuine := fetching.genuine
  have size := genuine.size
  have short := fetching.short
  have sum := effort_drop fetching.selected fetching.listed
  rw [FileDesc.pieces] at short sum
  obtain ⟨count,came⟩ := reply_came genuine orderly.chunked (show done ≤ (contents name).length by omega) more
  have read : context.currentFile = some file := by
    refine Option.bind_eq_some_iff.mpr ⟨_,fetching.current,?_⟩
    rw [file_eq underway.package orderly.listed,fetching.listed]
  have partly : Partly contents name done context {scene with waiting := []} :=
    ⟨fetching.partly.handle,fetching.partly.fed,fetching.partly.part⟩
  obtain ⟨fed,begun,whole,handle,checksum,shows⟩ := taken_shows writes unstopped came partly
  simp only [Exchange.step,fetching.waiting]
  have stepped := @step_cases platform context underway.sound underway.alive
    (answers,.fileChunk (reply contents (nextRequest platform file name done) more))
  generalize came' : reply contents (nextRequest platform file name done) more = chunk at *
  have own : chunk.name = some name := by rw [← came']; rfl
  generalize same : Sft.step platform context (answers,.fileChunk chunk) = after at stepped
  cases stepped with | fileChunk arrived =>
  cases arrived with
  | absent absent =>
    rw [fetching.current] at absent
    cases absent
  | dangling current gone =>
    rw [fetching.current,Option.some.injEq] at current
    rw [Context.currentFile,fetching.current,current] at read
    rw [Option.bind_some,gone] at read
    cases read
  | unexpected read' other =>
    obtain rfl := Option.some.inj (read.symm.trans read')
    rcases other with none' | other
    · rw [own] at none'
      cases none'
    · exact (other (own.trans genuine.named.symm)).elim
  | expected read' named chunkName outcome =>
    obtain rfl := Option.some.inj (read.symm.trans read')
    obtain rfl := Option.some.inj (genuine.named.symm.trans named)
    have wanted {fed' : List UInt8} (begun' : (context.begun name chunk).checksumContext = some fed') : fed' = fed :=
      Option.some.inj (begun'.symm.trans begun)
    have total : chunk.offset + chunk.length = UInt32.ofNat (done + count) := by rw [← came.total,UInt32.ofNat_toNat]
    have ending (all : ¬chunk.offset + chunk.length < file.sizeInBytes) : done + count = (contents name).length := by
      rw [UInt32.lt_iff_toNat_lt,came.total,size] at all
      have := came.inside
      omega
    cases outcome with
    | unopened first refused =>
      rw [opens] at refused
      cases refused
    | unwritten opens' refused =>
      rw [writes] at refused
      cases refused
    | unbegun later writes' absent =>
      rw [Context.begun,if_neg later,absent] at begun
      cases begun
    | @more fed' opens' writes' begun' less =>
      obtain rfl := wanted begun'
      rw [UInt32.lt_iff_toNat_lt,came.total,size] at less
      have asks := @requests_eq platform context file name revision underway.sends genuine.named genuine.revised
        (chunk.offset + chunk.length) (file.sizeInBytes - (chunk.offset + chunk.length))
      rw [asks,total] at same
      let scene' : Scene := {({scene with waiting := []} : Scene).with name ((contents name).take (done + count)) with
        waiting := [nextRequest platform file name (done + count)]}
      have seen : Shows context {scene with waiting := []} _ scene' := shows.trans (.emit [.fileGetChunk name revision
        (UInt32.ofNat (done + count)) (min platform.fileChunkSize (file.sizeInBytes - UInt32.ofNat (done + count)))] _)
      rw [call_eq same seen]
      have forward := came.some' (by omega)
      let after' := (context.taken answers name chunk fed').emit [.fileGetChunk name revision (UInt32.ofNat (done + count))
        (min platform.fileChunkSize (file.sizeInBytes - UInt32.ofNat (done + count)))]
      have kept : Holds context (context.taken answers name chunk fed') := taken_holds
      have underway' : Underway message block order (used + 1) after' scene' :=
        underway.holds (kept.trans Speaks.emit.holds) (@taken_fault context answers name chunk fed') (@taken_freed context answers name chunk fed') rfl
      have fetching' : Fetching platform contents files order block used (done + count) after' scene' entry file name revision :=
        ⟨fetching.selected,fetching.listed,kept.updateCurrentFile.trans fetching.current,genuine,rfl,
          by rw [FileDesc.pieces]; omega,⟨fun _ => handle,fun _ => checksum,fun _ => Function.update_self ..⟩,
          fun other member apart => (Function.update_of_ne apart ..).trans (fetching.stored other member apart)⟩
      exact .inr ⟨effort files (order.drop used) - (done + count),by omega,.fetching underway' fetching' rfl⟩
    | @mismatch fed' opens' writes' begun' all wrong =>
      rw [wanted begun',whole,ending all,List.take_length,genuine.fingerprint] at wrong
      exact (wrong rfl).elim
    | unclosed opens' writes' begun' all right refused =>
      rw [closes] at refused
      cases refused
    | @done fed' opens' writes' begun' all right closes' =>
      obtain rfl := wanted begun'
      rw [ending all,List.take_length] at shows
      have closed := shows.trans (.silent (@shut_silent context answers name chunk fed' file))
      have there := currentFile_of_holds read (@shut_holds context answers file name chunk fed')
      obtain ⟨scene',revision',waiting,told,disk⟩ := @revised_shows file name revision _
        (({scene with waiting := []} : Scene).with name (contents name)) answers there genuine.named genuine.revised
      obtain ⟨alive,freed⟩ := @revised_alive file _ answers there
      have underway' : Underway message block order (used + 1) ((context.shut answers name chunk fed' file).currentFileRevisionHandling answers) scene' :=
        underway.holds (shut_holds.trans (currentFileRevisionHandling_holds there)) (alive.trans shut_fault)
          (freed.trans (@taken_freed context answers name chunk fed')) told
      have arrear : Arrear contents files order (used + 1) scene' := by
        refine ⟨waiting,fun other member => ?_⟩
        obtain ⟨otherFile,inside,otherNamed⟩ := mem_namesOf member
        obtain ⟨suffix,mailbox⟩ := orderly.deliverable.apart otherFile inside file (List.mem_of_getElem? fetching.listed) other name otherNamed
          genuine.named
        rw [disk other suffix mailbox]
        by_cases own : other = name
        · rw [own]
          exact Function.update_self ..
        · rcases namesOf_succ fetching.selected fetching.listed genuine.named member with before | last
          · exact (Function.update_of_ne own ..).trans (fetching.stored other before own)
          · exact (own last).elim
      obtain ⟨scene'',goes,next⟩ := continued orderly underway' arrear answers
      rw [call_eq same ((closed.trans revision').trans goes)]
      refine next.symm.imp_right fun inside => ⟨_,?_,inside⟩
      omega

/-- Nothing comes of what has nothing to do with the package, but a report. -/
theorem stray_emits {event : Event} (answers : Answers) (sound : context.fault = none) (alive : context.freed = false)
    (known : ∀ current, context.updateCurrentFile = some current → ∃ file ∈ files, context.file current = some file)
    (stray : Stray files event) :
    ∃ effects, effects.all Effect.silent = true ∧ Sft.step platform context (answers,event) = context.emit effects := by
  have inside {file : FileDesc} (read : context.currentFile = some file) : file ∈ files := by
    obtain ⟨current,same,found⟩ := currentFile_eq read
    obtain ⟨file',member,found'⟩ := known current same
    rwa [Option.some.inj (found.symm.trans found')]
  have stepped := @step_cases platform context sound alive (answers,event)
  generalize Sft.step platform context (answers,event) = after at stepped ⊢
  cases stepped with
  | unhandledMessage => exact ⟨[],rfl,emit_nil.symm⟩
  | fileUpdateAvailable offered => exact stray.elim
  | freeContext freed => exact stray.elim
  | fileChunk arrived =>
    cases arrived with
    | absent absent => exact ⟨[],rfl,emit_nil.symm⟩
    | dangling current gone =>
      obtain ⟨file,_,found⟩ := known _ current
      rw [gone] at found
      cases found
    | unexpected read other => exact ⟨_,reports_silent _ _ _,rfl⟩
    | expected read named chunkName outcome => exact (stray _ (inside read) (chunkName.trans named.symm)).elim
  | fileDownloaded reported =>
    obtain ⟨success,apart⟩ := stray
    cases reported with
    | absent absent success' => exact ⟨[],rfl,emit_nil.symm⟩
    | missing absent failure =>
      rw [success] at failure
      cases failure
    | dangling current gone =>
      obtain ⟨file,_,found⟩ := known _ current
      rw [gone] at found
      cases found
    | unexpected read success' other => exact ⟨_,reports_silent _ _ _,rfl⟩
    | done read success' named same => exact (apart _ (inside read) (same.trans named.symm)).elim
    | failed read failure =>
      rw [success] at failure
      cases failure

theorem stray_within {left : Nat} {exchange : Exchange} {event : Event} (orderly : Orderly platform contents files message order)
    (within : Within platform contents files message block order left exchange) (answers : Answers) (stray : Stray files event) :
    Within platform contents files message block order left (Exchange.step platform contents exchange (.stray answers event)) := by
  cases within with | @fetching used done context scene entry file name revision underway fetching count =>
  have known (current : FilePointer) (same : context.updateCurrentFile = some current) : ∃ file ∈ files, context.file current = some file := by
    rw [fetching.current,Option.some.injEq] at same
    exact ⟨file,List.mem_of_getElem? fetching.listed,by rw [← same,file_eq underway.package orderly.listed,fetching.listed]⟩
  obtain ⟨effects,silent,same⟩ := @stray_emits platform files context event answers underway.sound underway.alive known stray
  rw [Exchange.step,call_eq same (.silent ⟨effects,rfl,silent⟩)]
  have underway' : Underway message block order (used + 1) (context.emit effects) scene := underway.holds Speaks.emit.holds rfl rfl rfl
  have fetching' : Fetching platform contents files order block used done (context.emit effects) scene entry file name revision :=
    ⟨fetching.selected,fetching.listed,fetching.current,fetching.genuine,fetching.waiting,fetching.short,
      ⟨fetching.partly.handle,fetching.partly.fed,fetching.partly.part⟩,fetching.stored⟩
  exact .fetching underway' fetching' count

theorem stray_complete {exchange : Exchange} {event : Event} (complete : Complete contents files order exchange) (answers : Answers)
    (stray : Stray files event) : Complete contents files order (Exchange.step platform contents exchange (.stray answers event)) := by
  obtain ⟨context,scene⟩ := exchange
  have known (current : FilePointer) (same : context.updateCurrentFile = some current) : ∃ file ∈ files, context.file current = some file := by
    rw [complete.current] at same
    cases same
  obtain ⟨effects,silent,same⟩ := @stray_emits platform files context event answers complete.sound complete.alive known stray
  rw [Exchange.step,call_eq same (.silent ⟨effects,rfl,silent⟩)]
  exact ⟨complete.sound,complete.alive,complete.current,complete.released,complete.waiting,complete.told,complete.stored⟩

theorem descent (orderly : Orderly platform contents files message order) :
    Runs.Descent (Exchange.step platform contents) (Input.Allowed files) Input.delivers
      (Within platform contents files message block order) (Complete contents files order) where
  positive left exchange within := by
    cases within with | @fetching used done context scene entry file name revision underway fetching count =>
    have sum := effort_drop fetching.selected fetching.listed
    have := fetching.short
    omega
  moved left exchange input within allowed moves := by
    cases within with | @fetching used done context scene entry file name revision underway fetching count =>
    cases input with
    | stray answers event => cases moves
    | deliver answers more =>
      rw [count]
      exact delivered orderly underway fetching allowed.1 allowed.2.1 allowed.2.2.1 allowed.2.2.2 more
  stayed left exchange input within allowed moves := by
    cases input with
    | deliver answers more => cases moves
    | stray answers event => exact .inr ⟨left,le_rfl,stray_within orderly within answers allowed⟩
  kept exchange input complete allowed := by
    cases input with
    | stray answers event => exact stray_complete complete answers allowed
    | deliver answers more =>
      rw [Exchange.step,complete.waiting]
      exact complete

/-- The package begins with a request for its first file. -/
theorem begins {answers : Answers} {disk : Name → Option (List UInt8)} (ready : Ready context) (some' : files ≠ [])
    (deliverable : Deliverable platform contents files) (chunked : 0 < platform.fileChunkSize.toNat)
    (orders : Context.orders answers files.length = true) :
    Orderly platform contents files (.ofFiles files) (Context.boardOrder answers files.length) ∧
      (Within platform contents files (.ofFiles files) context.nextBlock (Context.boardOrder answers files.length)
          (effort files (Context.boardOrder answers files.length))
          (Exchange.call platform ⟨context,{disk := disk}⟩ (answers,.fileUpdateAvailable (.ofFiles files))) ∨
        Complete contents files (Context.boardOrder answers files.length)
          (Exchange.call platform ⟨context,{disk := disk}⟩ (answers,.fileUpdateAvailable (.ofFiles files)))) := by
  have inside : ∀ entry ∈ Context.boardOrder answers files.length, 0 ≤ entry ∧ entry < files.length := by
    have all := (Bool.and_eq_true_iff.mp orders).2
    simpa using all
  have orderly : Orderly platform contents files (.ofFiles files) (Context.boardOrder answers files.length) :=
    ⟨rfl,boardOrder_length answers files.length,inside,deliverable,chunked⟩
  refine ⟨orderly,?_⟩
  have stepped := @step_cases platform context ready.sound ready.alive (answers,.fileUpdateAvailable (.ofFiles files))
  generalize same : Sft.step platform context (answers,.fileUpdateAvailable (.ofFiles files)) = after at stepped
  cases stepped with | fileUpdateAvailable offered =>
  cases offered with
  | misread package unlisted => exact (ready.listed _ _ package unlisted).elim
  | empty without =>
    rcases without with zero | unlisted
    · exact (some' (List.eq_nil_of_length_eq_zero zero)).elim
    · cases unlisted
  | refused listed refused =>
    rw [show (FileUpdateAvailable.ofFiles files).listLen = files.length from rfl,orders] at refused
    cases refused
  | begun listed nonempty orders' =>
    let begun := (context.received (.ofFiles files)).ordered (some (Context.boardOrder answers files.length))
    have underway : Underway (.ofFiles files) context.nextBlock (Context.boardOrder answers files.length) 0 begun {disk := disk} := by
      refine ⟨ready.sound,ready.alive,ready.sends,ready.plain,rfl,?_,fun pointer firmware => ?_,rfl⟩
      · rw [remaining_zero]
        rfl
      · rw [show begun.updateFirmware = none from ready.firmware] at firmware
        cases firmware
    have shows : Shows context {disk := disk} begun {disk := disk} := by
      refine .silent ⟨_,rfl,?_⟩
      split <;> rfl
    obtain ⟨scene',goes,next⟩ := continued orderly underway ⟨rfl,by simp [namesOf]⟩ answers
    rw [call_eq same (shows.trans goes)]
    exact next

theorem Within.undisturbed {left : Nat} {exchange : Exchange} (within : Within platform contents files message block order left exchange) :
    Undisturbed exchange := by
  cases within with | fetching underway fetching count =>
  exact ⟨underway.sound,by simp [underway.untold],by simp [fetching.waiting]⟩

theorem Complete.undisturbed {exchange : Exchange} (complete : Complete contents files order exchange) : Undisturbed exchange := by
  obtain ⟨firmware,told⟩ := complete.told
  exact ⟨complete.sound,by simp [told],by simp [complete.waiting]⟩

end Package

end XivelyClient.Sft
