import XivelyClient.Sft.Calls
import XivelyClient.Lib.Runs

/-! The pointers of a context into the list of its package. The message is freed at the end of a package and for the next one;
`update_firmware` is never cleared, and `update_current_file` only by the selection of a file. -/
namespace XivelyClient.Sft

/-- Each pointer is NULL or leads into the list that is there, and no list has been read behind its end. -/
structure PointersValid (context : Context) : Prop where
  current : ∀ pointer, context.updateCurrentFile = some pointer → (context.file pointer).isSome
  firmware : ∀ pointer, context.updateFirmware = some pointer → (context.file pointer).isSome
  fault : context.fault ≠ some .freedFile

/-- While a file is under download the order belongs to its package. -/
def Ordered (context : Context) : Prop :=
  context.updateCurrentFile ≠ none → ∃ order block message, context.updateableFilesDownloadOrder = some order ∧
    context.updateMessageFua = some (block,message) ∧ ∀ entry ∈ order, entry < message.listLen

structure PointersSound (context : Context) : Prop extends PointersValid context where
  ordered : Ordered context

/-- The download of a package begins. -/
def Starts (answers : Answers) (message : FileUpdateAvailable) : Prop :=
  0 < message.listLen ∧ message.list ≠ none ∧ Context.orders answers message.listLen = true

/-- The first file of the package is firmware. -/
def Marks (platform : Platform) (answers : Answers) (message : FileUpdateAvailable) : Prop :=
  ∃ files index rest file name, message.list = some files ∧
    Context.takeNext message.listLen (Context.boardOrder answers message.listLen) = some (index,rest) ∧
    files[index]? = some file ∧ file.name = some name ∧ platform.isThisFirmware name = true

/-- No file of the package is left to download. -/
def LastFile (context : Context) : Prop :=
  ∀ order block message, context.updateableFilesDownloadOrder = some order → context.updateMessageFua = some (block,message) →
    Context.takeNext message.listLen order = none

/-- What keeps the pointers: a package arrives while no file is under download, or begins its own download; it arrives while
no firmware was seen, or begins with firmware; and no package ends that has firmware. -/
def PointersKept (platform : Platform) (context : Context) (call : Answers × Event) : Prop :=
  context.fault = none → context.freed = false →
  match call with
  | (answers,.fileUpdateAvailable message) => (context.updateCurrentFile = none ∨ Starts answers message) ∧
      (context.updateFirmware = none ∨ Starts answers message ∧ Marks platform answers message)
  | (answers,.fileChunk chunk) => (∃ file fed, Verifies platform context answers chunk file fed) → answers.closes = true →
      LastFile context → context.updateFirmware = none
  | (_,.fileDownloaded filename successfully) => successfully = true → Names context filename → LastFile context →
      context.updateFirmware = none
  | _ => True

section Order

variable {listLen index : Nat} {order rest : List Int}

theorem takeNext_mem (next : Context.takeNext listLen order = some (index,rest)) :
    (index : Int) ∈ order ∧ ∀ entry ∈ rest, entry ∈ order ∨ entry = -1 := by
  induction listLen generalizing order rest with
  | zero => cases next
  | succ listLen ih =>
    cases order with
    | nil => cases next
    | cons entry order =>
      unfold Context.takeNext at next
      split at next
      · rename_i unused
        cases next
        constructor
        · rw [Int.toNat_of_nonneg unused]
          exact List.mem_cons_self
        · intro other member
          rcases List.mem_cons.mp member with same | later
          · exact .inr same
          · exact .inl (List.mem_cons_of_mem _ later)
      · obtain ⟨⟨found,order'⟩,taken,same⟩ := Option.map_eq_some_iff.mp next
        cases same
        obtain ⟨first,kept⟩ := ih taken
        constructor
        · exact List.mem_cons_of_mem _ first
        · intro other member
          rcases List.mem_cons.mp member with same | later
          · exact .inl (same ▸ List.mem_cons_self)
          · exact (kept other later).imp_left (List.mem_cons_of_mem _)

/-- A package that begins has a first file. -/
theorem takeNext_boardOrder {answers : Answers} (some' : 0 < listLen) (orders : Context.orders answers listLen = true) :
    Context.takeNext listLen (Context.boardOrder answers listLen) ≠ none := by
  have inside := List.all_eq_true.mp (Bool.and_eq_true_iff.mp orders).2
  have long : (Context.boardOrder answers listLen).length = listLen := by
    unfold Context.boardOrder
    rw [List.length_map,List.length_range]
  generalize Context.boardOrder answers listLen = order at inside long
  obtain ⟨listLen,rfl⟩ := Nat.exists_eq_succ_of_ne_zero (Nat.ne_of_gt some')
  cases order with
  | nil => cases long
  | cons entry order =>
    have nonneg := (Bool.and_eq_true_iff.mp (inside entry List.mem_cons_self)).1
    unfold Context.takeNext
    rw [if_pos (of_decide_eq_true nonneg)]
    exact Option.some_ne_none _

theorem boardOrder_inside {answers : Answers} (orders : Context.orders answers listLen = true) :
    ∀ entry ∈ Context.boardOrder answers listLen, entry < listLen := fun entry member =>
  of_decide_eq_true (Bool.and_eq_true_iff.mp (List.all_eq_true.mp (Bool.and_eq_true_iff.mp orders).2 entry member)).2

end Order

section Package

variable {platform : Platform} {answers : Answers} {context after : Context} {block : Nat} {message : FileUpdateAvailable}
  {files : List FileDesc} {order : List Int}

theorem listed_file (listed : message.list = some files) (inside : ∀ entry ∈ order, entry < message.listLen) {index : Nat}
    {rest : List Int} (next : Context.takeNext message.listLen order = some (index,rest)) : ∃ file, files[index]? = some file := by
  have small := inside index (takeNext_mem next).1
  have whole := message.whole files listed
  exact ⟨_,List.getElem?_eq_getElem (by omega)⟩

theorem rest_inside (inside : ∀ entry ∈ order, entry < message.listLen) {index : Nat}
    {rest : List Int} (next : Context.takeNext message.listLen order = some (index,rest)) :
    ∀ entry ∈ rest, entry < message.listLen := by
  intro entry member
  rcases (takeNext_mem next).2 entry member with kept | rfl
  · exact inside entry kept
  · omega

/-- How a package goes on, when its firmware is there, or is the file that comes next. -/
theorem Continued.sound (package : context.updateMessageFua = some (block,message)) (listed : message.list = some files)
    (ordered : context.updateableFilesDownloadOrder = some order) (inside : ∀ entry ∈ order, entry < message.listLen)
    (sound : context.fault ≠ some .freedFile)
    (firmware : ∀ pointer, context.updateFirmware = some pointer → (context.file pointer).isSome ∨
      ∃ index rest file name, Context.takeNext message.listLen order = some (index,rest) ∧ files[index]? = some file ∧
        file.name = some name ∧ platform.isThisFirmware name = true)
    (last : Context.takeNext message.listLen order = none → context.updateFirmware = none)
    (continued : Continued platform answers context block message files after) : PointersSound after := by
  have found (index : Nat) : context.file ⟨block,index⟩ = files[index]? := file_eq package listed index
  cases continued with
  | unordered unordered => exact (Option.some_ne_none order (ordered.symm.trans unordered)).elim
  | @next order' rest index file name ordered' next read named =>
    cases ordered.symm.trans ordered'
    have chosen : (context.file ⟨block,index⟩).isSome := by
      rw [found,read]
      rfl
    refine ⟨⟨fun pointer same => ?_,fun pointer same => ?_,sound⟩,fun _ => ?_⟩
    · cases same
      exact chosen
    · change (if platform.isThisFirmware name = true then some ⟨block,index⟩ else context.updateFirmware) = some pointer at same
      split at same
      · cases same
        exact chosen
      · rename_i other
        rcases firmware pointer same with there | ⟨index',rest',file',name',next',read',named',is⟩
        · exact there
        · cases next.symm.trans next'
          cases read.symm.trans read'
          cases named.symm.trans named'
          exact (other is).elim
    · exact ⟨rest,block,message,rfl,package,rest_inside inside next⟩
  | @misread order' rest index fault ordered' next cause =>
    cases ordered.symm.trans ordered'
    obtain ⟨file,read⟩ := listed_file listed inside next
    rcases cause with ⟨gone,_⟩ | ⟨⟨file',read',unnamed⟩,rfl⟩
    · exact (Option.some_ne_none file (read.symm.trans gone)).elim
    · refine ⟨⟨fun pointer same => ?_,fun pointer same => ?_,fun same => Fault.noConfusion (Option.some.inj same)⟩,fun _ => ?_⟩
      · cases same
        change (context.file ⟨block,index⟩).isSome
        rw [found,read]
        rfl
      · rcases firmware pointer same with there | ⟨index',rest',file'',name',next',read'',named',is⟩
        · exact there
        · cases next.symm.trans next'
          cases read'.symm.trans read''
          exact (Option.some_ne_none name' (named'.symm.trans unnamed)).elim
      · exact ⟨rest,block,message,rfl,package,rest_inside inside next⟩
  | @ended order' effects name ordered' none' read told =>
    cases ordered.symm.trans ordered'
    refine ⟨⟨fun pointer same => ?_,fun pointer same => ?_,sound⟩,fun some' => (some' rfl).elim⟩
    · cases same
    · exact (Option.some_ne_none pointer ((last none').symm.trans same).symm).elim
  | @dangling order' pointer ordered' none' firmware' gone =>
    cases ordered.symm.trans ordered'
    exact (Option.some_ne_none pointer ((last none').symm.trans firmware').symm).elim

theorem PointersSound.holds (sound : PointersSound context) (held : Holds context after) (fault : after.fault ≠ some .freedFile) :
    PointersSound after := by
  refine ⟨⟨fun pointer same => ?_,fun pointer same => ?_,fault⟩,fun some' => ?_⟩
  · rw [held.file]
    exact sound.current pointer (held.updateCurrentFile.symm.trans same)
  · rw [held.file]
    exact sound.firmware pointer (held.updateFirmware.symm.trans same)
  · rw [held.updateCurrentFile] at some'
    rw [held.order,held.updateMessageFua]
    exact sound.ordered some'

/-- The package goes on behind a file whose revision has been stored. -/
theorem sound_continue {file : FileDesc} (sound : PointersSound context) (read : context.currentFile = some file)
    (last : LastFile context → context.updateFirmware = none) :
    PointersSound ((context.currentFileRevisionHandling answers).continuePackageDownload platform answers) := by
  have held := @currentFileRevisionHandling_holds context file answers read
  obtain ⟨current,same,found⟩ := currentFile_eq read
  obtain ⟨message,files,package,listed,_⟩ := package_of_file found
  obtain ⟨order,block,message',ordered,package',inside⟩ := sound.ordered (same ▸ Option.some_ne_none current)
  cases package.symm.trans package'
  obtain ⟨status,effects,next,_,_,_,revised⟩ := @currentFileRevisionHandling_cases context file answers read
  refine (continuePackageDownload_cases (held.updateMessageFua.trans package) listed).sound
    (held.updateMessageFua.trans package) listed (held.order.trans ordered) inside ?_ ?_ ?_
  · rw [revised]
    exact sound.fault
  · intro pointer same
    rw [held.file]
    exact .inl (sound.firmware pointer (held.updateFirmware.symm.trans same))
  · intro none'
    rw [held.updateFirmware]
    refine last fun order' block' message'' ordered' package'' => ?_
    cases ordered.symm.trans ordered'
    cases package.symm.trans package''
    exact none'

end Package

section Calls

variable {platform : Platform} {answers : Answers} {context after : Context}

theorem Offered.sound {message : FileUpdateAvailable} (offered : Offered platform context answers message after)
    (sound : PointersSound context) (current : context.updateCurrentFile = none ∨ Starts answers message)
    (firmware : context.updateFirmware = none ∨ Starts answers message ∧ Marks platform answers message) : PointersSound after := by
  have idle (stopped : ¬Starts answers message) : context.updateCurrentFile = none ∧ context.updateFirmware = none :=
    ⟨current.resolve_right stopped,firmware.resolve_right fun both => stopped both.1⟩
  cases offered with
  | @misread block old package unlisted =>
    exact ⟨⟨sound.current,sound.firmware,fun same => Fault.noConfusion (Option.some.inj same)⟩,sound.ordered⟩
  | empty without =>
    obtain ⟨none',none''⟩ := idle fun starts => without.elim (Nat.ne_of_gt starts.1) starts.2.1
    exact ⟨⟨fun pointer same => (Option.some_ne_none pointer (none'.symm.trans same).symm).elim,
      fun pointer same => (Option.some_ne_none pointer (none''.symm.trans same).symm).elim,sound.fault⟩,
      fun some' => (some' none').elim⟩
  | refused listed refused =>
    obtain ⟨none',none''⟩ := idle fun starts => Bool.false_ne_true (refused.symm.trans starts.2.2)
    exact ⟨⟨fun pointer same => (Option.some_ne_none pointer (none'.symm.trans same).symm).elim,
      fun pointer same => (Option.some_ne_none pointer (none''.symm.trans same).symm).elim,sound.fault⟩,
      fun some' => (some' none').elim⟩
  | @begun files listed some' orders =>
    have continued := @continuePackageDownload_cases platform
      ((context.received message).ordered (some (Context.boardOrder answers message.listLen))) answers _ message files rfl listed
    have quiet : ((context.received message).ordered (some (Context.boardOrder answers message.listLen))).fault ≠
      some .freedFile := sound.fault
    refine continued.sound rfl listed rfl (boardOrder_inside orders) quiet ?_ ?_
    · intro pointer same
      rcases firmware with none' | ⟨_,files',index,rest,file,name,listed',next,read,named,is⟩
      · exact (Option.some_ne_none pointer (none'.symm.trans same).symm).elim
      · cases listed.symm.trans listed'
        exact .inr ⟨index,rest,file,name,next,read,named,is⟩
    · exact fun none' => (takeNext_boardOrder some' orders none').elim

theorem currentFile_of_sound (sound : PointersSound context) {current : FilePointer}
    (same : context.updateCurrentFile = some current) : context.file current ≠ none :=
  Option.isSome_iff_ne_none.mp (sound.current current same)

theorem kept_of (sound : PointersSound context) (held : Holds context after) (fault : after.fault = context.fault) :
    PointersSound after := sound.holds held (fault.symm ▸ sound.fault)

theorem PointersSound.emit {effects : List Effect} (sound : PointersSound context) : PointersSound (context.emit effects) :=
  sound.holds Speaks.emit.holds sound.fault

theorem Arrived.sound {chunk : FileChunk} (arrived : Arrived platform context answers chunk after) (sound : PointersSound context)
    (last : (∃ file fed, Verifies platform context answers chunk file fed) → answers.closes = true →
      LastFile context → context.updateFirmware = none) : PointersSound after := by
  cases arrived with
  | absent none' => exact sound
  | dangling same gone => exact (currentFile_of_sound sound same gone).elim
  | unexpected read other => exact sound.holds Speaks.emit.holds sound.fault
  | @expected file name _ read named same outcome =>
    cases outcome with
    | unopened first refused =>
      have opened : PointersSound (context.unopened name) := sound.holds .withHandle sound.fault
      exact opened.emit
    | unwritten opens refused =>
      exact (kept_of sound (@written_holds context answers name chunk) written_fault).emit
    | unbegun later writes absent =>
      exact sound.holds ((@written_holds context answers name chunk).trans Speaks.abort.holds)
        fun same => Fault.noConfusion (Option.some.inj same)
    | @more fed opens writes begun less =>
      exact (kept_of sound (@taken_holds context answers name chunk fed) taken_fault).emit
    | @mismatch fed opens writes begun whole wrong =>
      exact (kept_of sound (@verified_holds context answers file name chunk fed) verified_fault).emit
    | @unclosed fed opens writes begun whole right refused =>
      exact (kept_of sound (@shut_holds context answers file name chunk fed) shut_fault).emit
    | @done fed opens writes begun whole right closes =>
      have held := @shut_holds context answers file name chunk fed
      have kept : PointersSound (context.shut answers name chunk fed file) := kept_of sound held shut_fault
      refine sound_continue kept (currentFile_of_holds read held) fun left => ?_
      rw [held.updateFirmware]
      unfold LastFile at left
      rw [held.order,held.updateMessageFua] at left
      exact last ⟨file,fed,finishes_of_outcome read named same opens writes begun whole,right⟩ closes left

theorem Reported.sound {filename : Option Name} {successfully : Bool}
    (reported : Reported platform context answers filename successfully after) (sound : PointersSound context)
    (last : successfully = true → Names context filename → LastFile context → context.updateFirmware = none) :
    PointersSound after := by
  cases reported with
  | absent none' success => exact sound
  | missing none' failure => exact sound.holds Speaks.abort.holds fun same => Fault.noConfusion (Option.some.inj same)
  | dangling same gone => exact (currentFile_of_sound sound same gone).elim
  | unexpected read success other => exact sound.holds Speaks.emit.holds sound.fault
  | @done file name read success named same =>
    have kept : PointersSound (context.emit (context.reports file .downloaded .success)) := sound.holds Speaks.emit.holds sound.fault
    exact @sound_continue platform answers _ file kept read (last success ⟨file,name,read,named,same⟩)
  | failed read failure => exact sound.holds Speaks.emit.holds sound.fault

theorem step_pointersSound (call : Answers × Event) (sound : PointersSound context) (kept : PointersKept platform context call) :
    PointersSound (step platform context call) := by
  rcases @step_stepped platform context call with same | ⟨quiet,alive,stepped⟩
  · rwa [same]
  · have kept := kept quiet alive
    obtain ⟨answers,event⟩ := call
    generalize step platform context (answers,event) = after at stepped ⊢
    cases stepped with
    | fileUpdateAvailable offered => exact offered.sound sound kept.1 kept.2
    | fileChunk arrived => exact arrived.sound sound kept
    | unhandledMessage => exact sound
    | fileDownloaded reported => exact reported.sound sound kept
    | freeContext freed =>
      cases freed with
      | dangling same gone => exact (currentFile_of_sound sound same gone).elim
      | misread checked package unlisted =>
        exact ⟨⟨sound.current,sound.firmware,fun same => Fault.noConfusion (Option.some.inj same)⟩,sound.ordered⟩
      | freed checked released =>
        exact ⟨⟨fun pointer same => (Option.some_ne_none pointer same.symm).elim,
          fun pointer same => (Option.some_ne_none pointer same.symm).elim,sound.fault⟩,fun some' => (some' rfl).elim⟩

/-- In a run whose calls all keep the pointers, every state has valid pointers and no list was read behind its end. -/
theorem pointersValid_run (platform : Platform) (fnSendMessage sftUrlHandlerCallback : Bool) (calls : List (Answers × Event))
    (kept : Runs.Admissible (step platform) (PointersKept platform) (makeContext fnSendMessage sftUrlHandlerCallback) calls) :
    Runs.Always (step platform) PointersValid (makeContext fnSendMessage sftUrlHandlerCallback) calls := by
  have start : PointersSound (makeContext fnSendMessage sftUrlHandlerCallback) :=
    ⟨⟨fun _ same => (Option.some_ne_none _ same.symm).elim,fun _ same => (Option.some_ne_none _ same.symm).elim,
      fun same => (Option.some_ne_none _ same.symm).elim⟩,fun some' => (some' rfl).elim⟩
  have always := Runs.always_of_step (fun _ call sound kept => step_pointersSound call sound kept) start kept
  exact always.mono fun _ sound => sound.toPointersValid

end Calls

section Examples

/-- A board on which "fw" is firmware, and whose checksum is the bytes themselves. -/
def firmwarePlatform : Platform where
  isThisFirmware := fun name => name = [102,119]
  checksum := id

/-- Two files, of which no one is firmware, and the next package behind them. -/
def twoPackages : List (Answers × Event) :=
  [({},.fileUpdateAvailable (.ofFiles [fileNamed [97],fileNamed [98]])),({},.fileChunk (wholeChunk [97])),
    ({},.fileChunk (wholeChunk [98])),({},.fileUpdateAvailable (.ofFiles [fileNamed [99]]))]

theorem pointersValid_run_twoPackages :
    Runs.Always (step firmwarePlatform) PointersValid (makeContext true false) twoPackages := by
  apply pointersValid_run firmwarePlatform true false twoPackages
  refine ⟨?_,?_,?_,?_,trivial⟩
  · exact fun _ _ => ⟨.inl (by decide),.inl (by decide)⟩
  · exact fun _ _ _ _ _ => by decide
  · exact fun _ _ _ _ _ => by decide
  · exact fun _ _ => ⟨.inl (by decide),.inl (by decide)⟩

/-- The firmware of the first package is read at the end of the second one. -/
theorem pointersValid_run_firmware : ¬Runs.Always (step firmwarePlatform) PointersValid (makeContext true false)
    [({},.fileUpdateAvailable (.ofFiles [fileNamed [102,119]])),({},.fileChunk (wholeChunk [102,119])),
      ({},.fileUpdateAvailable (.ofFiles [fileNamed [99]])),({},.fileChunk (wholeChunk [99]))] := by
  intro always
  exact always.last.fault (by decide)

end Examples

end XivelyClient.Sft
