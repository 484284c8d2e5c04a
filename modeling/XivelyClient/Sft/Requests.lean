import XivelyClient.Sft.Calls

/-! Every request of a chunk stays within the file that is under download. -/
namespace XivelyClient.Sft

/-- A request names the current file and its revision, and asks for bytes of it, no more than a chunk holds. -/
def Bounded (platform : Platform) (context : Context) : Effect → Prop
  | .fileGetChunk name revision offset length => ∃ file, context.currentFile = some file ∧ file.name = some name ∧
      file.revision = some revision ∧ offset.toNat ≤ file.sizeInBytes.toNat ∧
      offset.toNat + length.toNat ≤ file.sizeInBytes.toNat ∧ length ≤ platform.fileChunkSize
  | _ => True

/-- Nothing is asked, or at the very end bytes that lie within the current file. -/
inductive Asks (platform : Platform) (before after : Context) : Prop
  | silent (quiet : Appends (!·.isRequest) before after)
  | asked (file : FileDesc) (offset length : UInt32) (quiet : List Effect) (silent : quiet.all (!·.isRequest) = true)
    (effects : after.effects = before.effects ++ (quiet ++ before.requests platform file offset length))
    (read : after.currentFile = some file) (bound : offset.toNat + length.toNat ≤ file.sizeInBytes.toNat)

section Quiet

variable {platform : Platform} {answers : Answers} {context before between after : Context} {file : FileDesc} {name : Name}
  {chunk : FileChunk} {fed : List UInt8} {block : Nat} {message : FileUpdateAvailable} {files : List FileDesc}

theorem reports_quiet (phase : FileStatusPhase) (code : FileStatusCode) :
    (context.reports file phase code).all (!·.isRequest) = true :=
  reports_all context file phase code fun _ _ => rfl

theorem storage_quiet (effect : Effect) (storage : effect.storage = true) : (!effect.isRequest) = true := by
  cases effect <;> first | rfl | exact (Bool.false_ne_true storage).elim

theorem settled_quiet (effect : Effect) (settled : effect.settled = true) : (!effect.isRequest) = true := by
  cases effect <;> first | rfl | exact (Bool.false_ne_true settled).elim

/-- The address of the application is asked first, and the service is told; a request comes last. -/
theorem fetches_cases : ∃ quiet, quiet.all (!·.isRequest) = true ∧ (context.fetches platform answers file name = quiet ∨
    context.fetches platform answers file name = quiet ++ context.requests platform file 0 file.sizeInBytes) := by
  have asks (asked accepts : Bool) : (if asked = true then [Effect.handleUrl name accepts] else []).all (!·.isRequest) = true := by
    split <;> rfl
  have rejects (rejected : Bool) : (if rejected = true then context.reports file .downloading .urldlRejected else []).all
      (!·.isRequest) = true := by
    split
    · exact reports_quiet _ _
    · rfl
  unfold Context.fetches
  dsimp only
  by_cases started : (file.downloadLink.isSome && context.sftUrlHandlerCallback && answers.accepts) = true
  · rw [if_pos started]
    refine ⟨_,?_,.inl rfl⟩
    rw [List.all_append,List.all_append,asks,rejects,reports_quiet]
    rfl
  · rw [if_neg started]
    by_cases allowed : file.downloadLink = none ∨ file.flagMqttDownloadAlsoSupported = true
    · rw [if_pos allowed]
      refine ⟨_,?_,.inr rfl⟩
      rw [List.all_append,asks,rejects]
      rfl
    · rw [if_neg allowed]
      refine ⟨_,?_,.inl rfl⟩
      rw [List.all_append,List.all_append,asks,rejects]
      rfl

theorem Asks.behind (quiet : Appends (!·.isRequest) before between) (sends : between.fnSendMessage = before.fnSendMessage)
    (asks : Asks platform between after) : Asks platform before after := by
  cases asks with
  | silent more => exact .silent (quiet.trans more)
  | @asked file offset length quiet' silent effects read bound =>
    obtain ⟨more,same,all⟩ := quiet
    have asked : between.requests platform file offset length = before.requests platform file offset length := by
      unfold Context.requests
      rw [sends]
    refine .asked file offset length (more ++ quiet') ?_ ?_ read bound
    · rw [List.all_append,all,silent]
      rfl
    · rw [effects,same,asked,List.append_assoc,List.append_assoc]

theorem Continued.asks (package : context.updateMessageFua = some (block,message)) (listed : message.list = some files)
    (continued : Continued platform answers context block message files after) : Asks platform context after := by
  cases continued with
  | unordered ordered => exact .silent (.refl context)
  | @next order rest index file name ordered next read named =>
    obtain ⟨quiet,all,same | same⟩ := @fetches_cases platform answers context file name
    · refine .silent ⟨Effect.selected (some ⟨block,index⟩) :: quiet,?_,all⟩
      rw [same]
      exact List.append_assoc _ _ _
    · refine .asked file 0 file.sizeInBytes (Effect.selected (some ⟨block,index⟩) :: quiet) all ?_ ?_
        (Nat.le_of_eq (Nat.zero_add _))
      · rw [same]
        exact List.append_assoc _ _ _
      · exact Option.bind_eq_some_iff.mpr ⟨⟨block,index⟩,rfl,(@file_eq context block message files package listed index).trans read⟩
  | misread ordered next cause => exact .silent ⟨_,rfl,rfl⟩
  | @ended order effects firmware ordered last read told =>
    refine .silent ⟨Effect.selected none :: (effects ++ [Effect.packageDownloadFinished firmware,Effect.messageFreed block]),
      List.append_assoc _ _ _,?_⟩
    rw [List.all_cons,List.all_append]
    rcases told with rfl | ⟨file,rfl⟩
    · rfl
    · rw [reports_quiet]
      rfl
  | dangling ordered last firmware gone => exact .silent ⟨_,rfl,rfl⟩

/-- The package goes on behind a file whose revision has been stored. -/
theorem asks_continue (read : context.currentFile = some file) :
    Asks platform context ((context.currentFileRevisionHandling answers).continuePackageDownload platform answers) := by
  have held := @currentFileRevisionHandling_holds context file answers read
  obtain ⟨current,same,found⟩ := currentFile_eq read
  obtain ⟨message,files,package,listed,_⟩ := package_of_file found
  exact .behind ((revised_settled read).mono settled_quiet) held.fnSendMessage
    ((continuePackageDownload_cases (held.updateMessageFua.trans package) listed).asks
      (held.updateMessageFua.trans package) listed)

end Quiet

section Calls

variable {platform : Platform} {answers : Answers} {context after : Context} {file : FileDesc} {name : Name} {chunk : FileChunk}

theorem sub_le_size {size : UInt32} {offset : UInt32} (less : offset < size) :
    offset.toNat + (size - offset).toNat ≤ size.toNat := by
  rw [UInt32.toNat_sub_of_le _ _ (UInt32.le_of_lt less)]
  have below := UInt32.lt_iff_toNat_lt.mp less
  omega

theorem min_le (first second : UInt32) : min first second ≤ first ∧ min first second ≤ second := by
  change (if first ≤ second then first else second) ≤ first ∧ (if first ≤ second then first else second) ≤ second
  split
  · rename_i less
    exact ⟨UInt32.le_refl first,less⟩
  · rename_i more
    exact ⟨UInt32.le_of_lt (UInt32.not_le.mp more),UInt32.le_refl second⟩

theorem ChunkOutcome.asks (read : context.currentFile = some file)
    (outcome : ChunkOutcome platform context answers file name chunk after) : Asks platform context after := by
  cases outcome with
  | unopened first refused =>
    have opened : Appends (!·.isRequest) context (context.unopened name) := ⟨_,rfl,rfl⟩
    refine .silent (opened.trans (.emit ?_))
    rw [List.all_append,reports_quiet]
    rfl
  | unwritten opens refused =>
    refine .silent ((written_storage.mono storage_quiet).trans (.emit ?_))
    rw [List.all_append,reports_quiet]
    rfl
  | unbegun later writes absent => exact .silent ((@written_storage context answers name chunk).mono storage_quiet)
  | @more fed opens writes begun less =>
    have still : (context.taken answers name chunk fed).currentFile = some file := currentFile_of_holds read taken_holds
    refine .behind ((@taken_storage context answers name chunk fed).mono storage_quiet) taken_holds.fnSendMessage
      (.asked file _ _ [] rfl ?_ still (sub_le_size less))
    rw [taken_holds.requests]
    rfl
  | @mismatch fed opens writes begun whole wrong =>
    refine .silent (((@verified_storage context answers file name chunk fed).mono storage_quiet).trans (.emit ?_))
    rw [List.all_append,reports_quiet]
    rfl
  | @unclosed fed opens writes begun whole right refused =>
    exact .silent (((@shut_settled context answers file name chunk fed).mono settled_quiet).trans (.emit (reports_quiet _ _)))
  | @done fed opens writes begun whole right closes =>
    exact .behind ((@shut_settled context answers file name chunk fed).mono settled_quiet) shut_holds.fnSendMessage
      (asks_continue (currentFile_of_holds read shut_holds))

theorem Stepped.asks {event : Event} (stepped : Stepped platform context answers event after) : Asks platform context after := by
  cases stepped with
  | @fileUpdateAvailable message after offered =>
    have received (order : Option (List Int)) : Appends (!·.isRequest) context ((context.received message).ordered order) := by
      unfold Context.received
      split <;> exact ⟨_,rfl,rfl⟩
    cases offered with
    | misread package unlisted => exact .silent (.refl context)
    | empty without => exact .silent (received context.updateableFilesDownloadOrder)
    | refused listed refused => exact .silent (received none)
    | begun listed some' orders =>
      exact .behind (received _) rfl ((continuePackageDownload_cases rfl listed).asks rfl listed)
  | fileChunk arrived =>
    cases arrived with
    | absent none => exact .silent (.refl context)
    | dangling same gone => exact .silent (.refl context)
    | unexpected read other => exact .silent (.emit (reports_quiet _ _))
    | expected read named same outcome => exact outcome.asks read
  | unhandledMessage => exact .silent (.refl context)
  | fileDownloaded reported =>
    cases reported with
    | absent none success => exact .silent (.refl context)
    | missing none failure => exact .silent (.refl context)
    | dangling same gone => exact .silent (.refl context)
    | unexpected read success other => exact .silent (.emit (reports_quiet _ _))
    | @done file name read success named same =>
      exact .behind (.emit (reports_quiet .downloaded .success)) rfl (@asks_continue platform answers _ file read)
    | @failed file read failure =>
      split
      · exact .asked file _ _ _ (reports_quiet .downloaded .urldlFailed) rfl read (Nat.le_of_eq (Nat.zero_add _))
      · rw [List.append_nil]
        exact .silent (.emit (reports_quiet _ _))
  | freeContext freed =>
    cases freed with
    | dangling same gone => exact .silent (.refl context)
    | @misread checksum finals block old checked package unlisted =>
      refine .silent ⟨_,rfl,?_⟩
      rw [List.all_append]
      rcases checked with rfl | ⟨file,rfl⟩ <;> rfl
    | @freed checksum finals frees checked released =>
      refine .silent ⟨_,rfl,?_⟩
      rw [List.all_append,List.all_append]
      rcases checked with rfl | ⟨file,rfl⟩ <;> rcases released with rfl | ⟨block,rfl⟩ <;> rfl

theorem step_asks (call : Answers × Event) : Asks platform context (step platform context call) := by
  rcases @step_stepped platform context call with same | ⟨_,_,stepped⟩
  · rw [same]
    exact .silent (.refl context)
  · exact stepped.asks

theorem Asks.bounded (asks : Asks platform context after) :
    ∃ more, after.effects = context.effects ++ more ∧ ∀ effect ∈ more, Bounded platform after effect := by
  have silent (effects : List Effect) (quiet : effects.all (!·.isRequest) = true) (effect : Effect) (member : effect ∈ effects) :
      Bounded platform after effect := by
    have quiet := List.all_eq_true.mp quiet effect member
    cases effect <;> first | exact trivial | exact absurd quiet Bool.false_ne_true
  cases asks with
  | silent appends =>
    obtain ⟨more,same,quiet⟩ := appends
    exact ⟨more,same,silent more quiet⟩
  | @asked file offset length quiet all effects read bound =>
    refine ⟨_,effects,fun effect member => ?_⟩
    rcases List.mem_append.mp member with member | member
    · exact silent quiet all effect member
    · unfold Context.requests Context.createFileGetChunk at member
      split at member
      · split at member
        · rename_i name revision named revised
          cases List.mem_singleton.mp member
          obtain ⟨chunked,least⟩ := min_le platform.fileChunkSize length
          have least := UInt32.le_iff_toNat_le.mp least
          exact ⟨file,read,named,revised,by omega,by omega,chunked⟩
        · exact absurd member List.not_mem_nil
      · exact absurd member List.not_mem_nil

/-- Whatever the packages, the chunks and the reports: a step asks only for bytes of the file that is then the current one. -/
theorem step_requests (platform : Platform) (context : Context) (call : Answers × Event) :
    ∃ more, (step platform context call).effects = context.effects ++ more ∧
      ∀ effect ∈ more, Bounded platform (step platform context call) effect :=
  (step_asks call).bounded

end Calls

end XivelyClient.Sft
