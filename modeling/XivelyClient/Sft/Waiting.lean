import XivelyClient.Sft.Calls
import XivelyClient.Lib.Runs

/-! A file under download is waited for: a request or a download of the application is under way, or an error has been
reported. -/
namespace XivelyClient.Sft

/-- What is known of the file since it was selected: the requests and the downloads that are not answered, and whether an
error was reported. -/
structure Watch where
  waits : Nat := 0
  downloads : Nat := 0
  reported : Bool := false
  deriving DecidableEq, Repr

namespace Watch

def see (watch : Watch) : Effect → Watch
  | .selected _ => {}
  | .fileGetChunk _ _ _ _ => {watch with waits := watch.waits + 1}
  | .handleUrl _ true => {watch with downloads := watch.downloads + 1}
  | .fileStatus _ _ _ code => if code = .success then watch else {watch with reported := true}
  | _ => watch

/-- A chunk of the file answers a request, a report on it a download. -/
def hear (watch : Watch) (context : Context) : Event → Watch
  | .fileChunk chunk =>
    if chunk.name ≠ none ∧ context.currentFile.map FileDesc.name = some chunk.name then {watch with waits := watch.waits - 1} else watch
  | .fileDownloaded filename _ =>
    if filename ≠ none ∧ context.currentFile.map FileDesc.name = some filename then
      {watch with downloads := watch.downloads - 1}
    else watch
  | _ => watch

end Watch

def Effect.isMessage : Effect → Bool
  | .fileStatus _ _ _ _ | .fileGetChunk _ _ _ _ => true
  | _ => false

structure Watched where
  context : Context
  watch : Watch := {}
  deriving DecidableEq

/-- A call with its answers, and which of its messages are lost: those that cannot be made, encoded or pushed. -/
structure Call where
  answers : Answers := {}
  event : Event
  lost : Effect → Bool := fun _ => false

/-- A step, with what is heard before it and seen after it; a freed context hears nothing. -/
def Watched.step (platform : Platform) (watched : Watched) (call : Call) : Watched where
  context := Sft.step platform watched.context (call.answers,call.event)
  watch := (((Sft.step platform watched.context (call.answers,call.event)).effects.drop watched.context.effects.length).filter
      fun effect => !(effect.isMessage && call.lost effect)).foldl Watch.see
    (if watched.context.freed then watched.watch else watched.watch.hear watched.context call.event)

/-- Whoever waits for the file under download is waited for. -/
def Watched.Awaits (watched : Watched) : Prop :=
  watched.context.fault = none → watched.context.updateCurrentFile ≠ none → watched.watch.reported = false →
    0 < watched.watch.waits ∨ 0 < watched.watch.downloads

/-- The file can be asked for and reported: it has a revision, and a way to get it. -/
def Fetchable (context : Context) (file : FileDesc) : Prop :=
  file.name ≠ none → file.revision ≠ none ∧
    (file.downloadLink = none ∨ context.sftUrlHandlerCallback = true ∨ file.flagMqttDownloadAlsoSupported = true)

/-- The file that the package goes on with. -/
def Upcoming (order : Option (List Int)) (package : Option FileUpdateAvailable) (file : FileDesc) : Prop :=
  ∃ entries message files index rest, order = some entries ∧ package = some message ∧ message.list = some files ∧
    Context.takeNext message.listLen entries = some (index,rest) ∧ files[index]? = some file

/-- Whatever file a call selects can be fetched. -/
def SelectsFetchable (platform : Platform) (context : Context) : Answers × Event → Prop
  | (answers,.fileUpdateAvailable message) => Context.orders answers message.listLen = true →
      ∀ file, Upcoming (some (Context.boardOrder answers message.listLen)) (some message) file → Fetchable context file
  | (answers,.fileChunk chunk) => (∃ file fed, Verifies platform context answers chunk file fed) → answers.closes = true →
      ∀ file, Upcoming context.updateableFilesDownloadOrder (context.updateMessageFua.map Prod.snd) file → Fetchable context file
  | (_,.fileDownloaded filename successfully) => successfully = true → Names context filename →
      ∀ file, Upcoming context.updateableFilesDownloadOrder (context.updateMessageFua.map Prod.snd) file → Fetchable context file
  | _ => True

/-- No request is lost and no report of an error. -/
def Call.delivers (call : Call) : Prop :=
  ∀ effect : Effect, effect.isMessage = true → effect.settled = false → call.lost effect = false

/-- What is seen of what one context adds to another. -/
def Sees (before after : Context) (watch watch' : Watch) : Prop :=
  ∃ more, after.effects = before.effects ++ more ∧ more.foldl Watch.see watch = watch'

structure WatchSound (context : Context) (watch : Watch) : Prop where
  sends : context.fnSendMessage = true
  known : ∀ current, context.updateCurrentFile = some current → current.block < context.nextBlock
  readable : ∀ file, context.currentFile = some file →
    context.updateableFilesDownloadOrder ≠ none ∧ file.name ≠ none ∧ file.revision ≠ none
  awaits : context.updateCurrentFile ≠ none → watch.reported = false → 0 < watch.waits ∨ 0 < watch.downloads

section Seeing

variable {platform : Platform} {answers : Answers} {context before between after : Context} {watch watch' watch'' : Watch}
  {file : FileDesc} {effects : List Effect}

theorem Sees.trans (first : Sees before between watch watch') (second : Sees between after watch' watch'') :
    Sees before after watch watch'' := by
  obtain ⟨more,same,seen⟩ := first
  obtain ⟨more',same',seen'⟩ := second
  refine ⟨more ++ more',by rw [same',same,List.append_assoc],?_⟩
  rw [List.foldl_append,seen,seen']

theorem Sees.refl : Sees context context watch watch := ⟨[],(List.append_nil _).symm,rfl⟩

theorem Sees.emit (seen : effects.foldl Watch.see watch = watch') : Sees context (context.emit effects) watch watch' :=
  ⟨effects,rfl,seen⟩

theorem see_all (still : ∀ effect ∈ effects, ∀ watch : Watch, watch.see effect = watch) :
    effects.foldl Watch.see watch = watch := by
  induction effects generalizing watch with
  | nil => rfl
  | cons effect effects ih =>
    rw [List.foldl_cons,still effect List.mem_cons_self]
    exact ih fun other member => still other (List.mem_cons_of_mem _ member)

theorem see_settled (effect : Effect) (settled : effect.settled = true) (watch : Watch) : watch.see effect = watch := by
  cases effect <;> first | rfl | exact (Bool.false_ne_true settled).elim | exact if_pos (of_decide_eq_true settled)

theorem Sees.settled (appends : Appends Effect.settled before after) : Sees before after watch watch := by
  obtain ⟨more,same,all⟩ := appends
  exact ⟨more,same,see_all fun effect member => see_settled effect (List.all_eq_true.mp all effect member)⟩

/-- Messages that nobody waits for may be lost. -/
theorem see_delivered {call : Call} (delivers : call.delivers) :
    (effects.filter fun effect => !(effect.isMessage && call.lost effect)).foldl Watch.see watch = effects.foldl Watch.see watch := by
  induction effects generalizing watch with
  | nil => rfl
  | cons effect effects ih =>
    rw [List.filter_cons]
    split
    · exact ih
    · rename_i dropped
      rw [List.foldl_cons,ih,see_settled effect]
      obtain ⟨message,lost⟩ := Bool.and_eq_true_iff.mp (by simpa using dropped : (effect.isMessage && call.lost effect) = true)
      by_contra unsettled
      exact Bool.false_ne_true ((delivers effect message (Bool.eq_false_iff.mpr unsettled)).symm.trans lost)

theorem Sees.final (sees : Sees before after watch watch') :
    (after.effects.drop before.effects.length).foldl Watch.see watch = watch' := by
  obtain ⟨more,same,seen⟩ := sees
  rw [same,List.drop_left,seen]

/-- An error about the file is reported. -/
theorem see_reports {phase : FileStatusPhase} {code : FileStatusCode} (sends : context.fnSendMessage = true)
    (named : file.name ≠ none) (revised : file.revision ≠ none) (error : code ≠ .success) :
    (context.reports file phase code).foldl Watch.see watch = {watch with reported := true} := by
  obtain ⟨name,named⟩ := Option.ne_none_iff_exists'.mp named
  obtain ⟨revision,revised⟩ := Option.ne_none_iff_exists'.mp revised
  unfold Context.reports Context.createFileStatus
  rw [if_pos sends,named,revised]
  exact if_neg error

theorem see_success {phase : FileStatusPhase} : (context.reports file phase .success).foldl Watch.see watch = watch :=
  see_all fun effect member => see_settled effect
    (List.all_eq_true.mp (reports_all context file phase .success fun _ _ => rfl) effect member)

theorem see_requests {offset length : UInt32} (sends : context.fnSendMessage = true)
    (named : file.name ≠ none) (revised : file.revision ≠ none) :
    (context.requests platform file offset length).foldl Watch.see watch = {watch with waits := watch.waits + 1} := by
  obtain ⟨name,named⟩ := Option.ne_none_iff_exists'.mp named
  obtain ⟨revision,revised⟩ := Option.ne_none_iff_exists'.mp revised
  unfold Context.requests Context.createFileGetChunk
  rw [if_pos sends,named,revised]
  rfl

/-- A file that can be fetched is waited for once it is selected, or an error has been reported. -/
theorem see_fetches {name : Name} (sends : context.fnSendMessage = true) (named : file.name = some name)
    (fetchable : Fetchable context file) (selected : watch = {}) :
    ((context.fetches platform answers file name).foldl Watch.see watch).reported = true ∨
    0 < ((context.fetches platform answers file name).foldl Watch.see watch).waits ∨
    0 < ((context.fetches platform answers file name).foldl Watch.see watch).downloads := by
  subst selected
  have named : file.name ≠ none := named ▸ Option.some_ne_none name
  obtain ⟨revised,way⟩ := fetchable named
  unfold Context.fetches
  by_cases asked : (file.downloadLink.isSome && context.sftUrlHandlerCallback) = true
  · cases accepts : answers.accepts with
    | true =>
      simp only [asked,Bool.and_true,Bool.not_true,Bool.and_false,if_true,if_false,List.append_nil,Bool.false_eq_true]
      rw [List.foldl_append,see_success]
      exact .inr (.inr Nat.zero_lt_one)
    | false =>
      simp only [asked,Bool.and_false,Bool.not_false,Bool.and_true,if_true,if_false,Bool.false_eq_true]
      rw [List.foldl_append,List.foldl_append,see_reports sends named revised (by decide)]
      split
      · rw [see_requests sends named revised]
        exact .inl rfl
      · exact .inl rfl
  · have unasked := asked
    simp only [asked,Bool.false_and,if_false,Bool.false_eq_true,List.nil_append]
    have allowed : file.downloadLink = none ∨ file.flagMqttDownloadAlsoSupported = true := by
      rcases way with unlinked | handled | supported
      · exact .inl unlinked
      · rw [handled,Bool.and_true,Bool.not_eq_true,Option.isSome_eq_false_iff,Option.isNone_iff_eq_none] at unasked
        exact .inl unasked
      · exact .inr supported
    rw [if_pos allowed,see_requests sends named revised]
    exact .inr (.inl Nat.zero_lt_one)

end Seeing

section Steps

variable {platform : Platform} {answers : Answers} {context after : Context} {watch : Watch} {file : FileDesc} {block : Nat}
  {message : FileUpdateAvailable} {files : List FileDesc}

theorem Continued.watched (package : context.updateMessageFua = some (block,message)) (listed : message.list = some files)
    (sends : context.fnSendMessage = true) (known : block < context.nextBlock) (some' : context.updateableFilesDownloadOrder ≠ none)
    (fetchable : ∀ file, Upcoming context.updateableFilesDownloadOrder (some message) file → Fetchable context file)
    (continued : Continued platform answers context block message files after) (quiet : after.fault = none) :
    ∃ watch', Sees context after watch watch' ∧ WatchSound after watch' := by
  cases continued with
  | unordered unordered => exact (some' unordered).elim
  | @next order rest index file name ordered next read named =>
    have fetchable := fetchable file ⟨order,message,files,index,rest,ordered,rfl,listed,next,read⟩
    have found : context.file ⟨block,index⟩ = some file := (file_eq package listed index).trans read
    have named' : file.name ≠ none := named ▸ Option.some_ne_none name
    refine ⟨_,⟨Effect.selected (some ⟨block,index⟩) :: context.fetches platform answers file name,List.append_assoc _ _ _,rfl⟩,
      sends,?_,?_,?_⟩
    · intro current same
      cases same
      exact known
    · intro other read'
      obtain ⟨current,same,found'⟩ := currentFile_eq read'
      cases same
      cases found.symm.trans found'
      exact ⟨Option.some_ne_none rest,named',(fetchable named').1⟩
    · intro _ silent
      rcases @see_fetches platform answers context {} file name sends named fetchable rfl with reported | waited
      · exact (Bool.false_ne_true (silent.symm.trans reported)).elim
      · exact waited
  | misread ordered next cause => cases quiet
  | @ended order effects firmware ordered last read told =>
    refine ⟨_,⟨_,List.append_assoc _ _ _,rfl⟩,sends,?_,?_,fun some'' => (some'' rfl).elim⟩
    · intro current same
      cases same
    · intro file read'
      cases read'
  | dangling ordered last firmware gone => cases quiet

theorem WatchSound.holds {watch' : Watch} (sound : WatchSound context watch) (held : Holds context after)
    (awaits : after.updateCurrentFile ≠ none → watch'.reported = false → 0 < watch'.waits ∨ 0 < watch'.downloads) :
    WatchSound after watch' := by
  refine ⟨held.fnSendMessage.trans sound.sends,fun current same => ?_,fun file read => ?_,awaits⟩
  · rw [held.nextBlock]
    exact sound.known current (held.updateCurrentFile.symm.trans same)
  · rw [held.order]
    exact sound.readable file (held.currentFile.symm.trans read)

/-- The package goes on behind a file whose revision has been stored. -/
theorem watched_continue {earlier : Watch} (sound : WatchSound context earlier) (read : context.currentFile = some file)
    (fetchable : ∀ file, Upcoming context.updateableFilesDownloadOrder (context.updateMessageFua.map Prod.snd) file →
      Fetchable context file)
    (quiet : ((context.currentFileRevisionHandling answers).continuePackageDownload platform answers).fault = none) :
    ∃ watch', Sees context ((context.currentFileRevisionHandling answers).continuePackageDownload platform answers) watch watch' ∧
      WatchSound ((context.currentFileRevisionHandling answers).continuePackageDownload platform answers) watch' := by
  have held := @currentFileRevisionHandling_holds context file answers read
  obtain ⟨current,same,found⟩ := currentFile_eq read
  obtain ⟨message,files,package,listed,_⟩ := package_of_file found
  have some' : (context.currentFileRevisionHandling answers).updateableFilesDownloadOrder ≠ none := by
    rw [held.order]
    exact (sound.readable file read).1
  have known : current.block < (context.currentFileRevisionHandling answers).nextBlock := by
    rw [held.nextBlock]
    exact sound.known current same
  have handled : (context.currentFileRevisionHandling answers).sftUrlHandlerCallback = context.sftUrlHandlerCallback :=
    held.sftUrlHandlerCallback
  have fetchable' (file : FileDesc) (upcoming : Upcoming (context.currentFileRevisionHandling answers).updateableFilesDownloadOrder
      (some message) file) : Fetchable (context.currentFileRevisionHandling answers) file := by
    rw [held.order] at upcoming
    rw [package] at fetchable
    unfold Fetchable
    rw [handled]
    exact fetchable file upcoming
  have continued : ∃ watch', Sees (context.currentFileRevisionHandling answers) _ watch watch' ∧ WatchSound _ watch' :=
    (continuePackageDownload_cases (held.updateMessageFua.trans package) listed).watched
      (held.updateMessageFua.trans package) listed (held.fnSendMessage.trans sound.sends) known some' fetchable' quiet
  obtain ⟨watch',sees,sound'⟩ := continued
  exact ⟨watch',(Sees.settled (revised_settled read)).trans sees,sound'⟩

/-- A chunk or a report that goes wrong is told. -/
theorem sound_reported {effects : List Effect} (sound : WatchSound context watch) (held : Holds context after) {watch' : Watch}
    (reported : watch'.reported = true) : WatchSound (after.emit effects) watch' :=
  sound.holds (held.trans Speaks.emit.holds) fun _ silent => (Bool.false_ne_true (silent.symm.trans reported)).elim

theorem Arrived.watched {chunk : FileChunk} (arrived : Arrived platform context answers chunk after)
    (sound : WatchSound context watch) (fetchable : SelectsFetchable platform context (answers,.fileChunk chunk))
    (quiet : after.fault = none) :
    ∃ watch', Sees context after (watch.hear context (.fileChunk chunk)) watch' ∧ WatchSound after watch' := by
  generalize heard : watch.hear context (.fileChunk chunk) = watch₁
  cases arrived with
  | absent none' => exact ⟨watch₁,.refl,sound.holds (.refl context) fun some' => (some' none').elim⟩
  | dangling same gone => cases quiet
  | @unexpected file read other =>
    obtain ⟨_,named,revised⟩ := sound.readable file read
    exact ⟨_,.emit (see_reports sound.sends named revised (by decide)),sound_reported sound (.refl context) rfl⟩
  | @expected file name _ read named same outcome =>
    obtain ⟨_,named',revised⟩ := sound.readable file read
    have told (before : Context) (phase : FileStatusPhase) (code : FileStatusCode) (more : List Effect)
        (sees : Sees context before watch₁ watch₁) (held : Holds context before) (error : code ≠ .success)
        (still : ∀ watch : Watch, more.foldl Watch.see watch = watch) :
        ∃ watch', Sees context (before.emit (context.reports file phase code ++ more)) watch₁ watch' ∧
          WatchSound (before.emit (context.reports file phase code ++ more)) watch' := by
      refine ⟨{watch₁ with reported := true},sees.trans (.emit ?_),sound_reported sound held rfl⟩
      rw [List.foldl_append,see_reports sound.sends named' revised error,still]
    cases outcome with
    | unopened first refused =>
      exact told (context.unopened name) _ _ _ ⟨_,rfl,rfl⟩ .withHandle (by decide) fun _ => rfl
    | unwritten opens refused =>
      exact told _ _ _ _ (.settled (written_storage.mono storage_settled)) written_holds (by decide) fun _ => rfl
    | unbegun later writes absent => cases quiet
    | @more fed opens writes begun less =>
      refine ⟨_,(Sees.settled ((@taken_storage context answers name chunk fed).mono storage_settled)).trans
        (.emit (see_requests sound.sends named' revised)),?_⟩
      exact sound.holds (taken_holds.trans Speaks.emit.holds) fun _ _ => .inl (Nat.succ_pos _)
    | @mismatch fed opens writes begun whole wrong =>
      exact told _ _ _ _ (.settled ((@verified_storage context answers file name chunk fed).mono storage_settled)) verified_holds
        (by decide) fun _ => rfl
    | @unclosed fed opens writes begun whole right refused =>
      have unclosed := told _ .processing .fileClose [] (.settled (@shut_settled context answers file name chunk fed)) shut_holds (by decide) fun _ => rfl
      rw [List.append_nil] at unclosed
      exact unclosed
    | @done fed opens writes begun whole right closes =>
      have held := @shut_holds context answers file name chunk fed
      have shut : WatchSound (context.shut answers name chunk fed file) {reported := true} :=
        sound.holds held fun _ reported => (Bool.false_ne_true reported.symm).elim
      have fetchable' (file' : FileDesc) (upcoming : Upcoming (context.shut answers name chunk fed file).updateableFilesDownloadOrder
          ((context.shut answers name chunk fed file).updateMessageFua.map Prod.snd) file') :
          Fetchable (context.shut answers name chunk fed file) file' := by
        rw [held.order,held.updateMessageFua] at upcoming
        unfold Fetchable
        rw [held.sftUrlHandlerCallback]
        exact fetchable ⟨file,fed,finishes_of_outcome read named same opens writes begun whole,right⟩ closes file' upcoming
      obtain ⟨watch',sees,sound'⟩ := @watched_continue platform answers _ watch₁ file _ shut (currentFile_of_holds read held)
        fetchable' quiet
      exact ⟨watch',(Sees.settled shut_settled).trans sees,sound'⟩

theorem Reported.watched {filename : Option Name} {successfully : Bool}
    (reported : Reported platform context answers filename successfully after) (sound : WatchSound context watch)
    (fetchable : SelectsFetchable platform context (answers,.fileDownloaded filename successfully)) (quiet : after.fault = none) :
    ∃ watch', Sees context after (watch.hear context (.fileDownloaded filename successfully)) watch' ∧ WatchSound after watch' := by
  generalize heard : watch.hear context (.fileDownloaded filename successfully) = watch₁
  cases reported with
  | absent none' success => exact ⟨watch₁,.refl,sound.holds (.refl context) fun some' => (some' none').elim⟩
  | missing none' failure => cases quiet
  | dangling same gone => cases quiet
  | @unexpected file read success other =>
    obtain ⟨_,named,revised⟩ := sound.readable file read
    exact ⟨_,.emit (see_reports sound.sends named revised (by decide)),sound_reported sound (.refl context) rfl⟩
  | @done file name read success named same =>
    have settled : WatchSound (context.emit (context.reports file .downloaded .success)) {reported := true} :=
      sound.holds Speaks.emit.holds fun _ reported => (Bool.false_ne_true reported.symm).elim
    obtain ⟨watch',sees,sound'⟩ := @watched_continue platform answers _ watch₁ file _ settled read
      (fetchable success ⟨file,name,read,named,same⟩) quiet
    exact ⟨watch',(Sees.emit see_success).trans sees,sound'⟩
  | @failed file read failure =>
    obtain ⟨_,named,revised⟩ := sound.readable file read
    refine ⟨_,.emit rfl,sound_reported sound (.refl context) ?_⟩
    rw [List.foldl_append,see_reports sound.sends named revised (by decide)]
    split
    · rw [see_requests sound.sends named revised]
    · rfl

theorem Offered.watched (offered : Offered platform context answers message after) (sound : WatchSound context watch)
    (fetchable : SelectsFetchable platform context (answers,.fileUpdateAvailable message)) (quiet : after.fault = none) :
    ∃ watch', Sees context after watch watch' ∧ WatchSound after watch' := by
  have received (order : Option (List Int)) (watch : Watch) : Sees context ((context.received message).ordered order) watch watch := by
    unfold Context.received
    split <;> exact ⟨_,rfl,rfl⟩
  -- the pointer is older than the message that arrives, so it does not lead into its list
  have unread (order : Option (List Int)) : ((context.received message).ordered order).currentFile = none := by
    unfold Context.currentFile
    cases same : context.updateCurrentFile with
    | none =>
      rw [show ((context.received message).ordered order).updateCurrentFile = none from same]
      rfl
    | some current =>
      rw [show ((context.received message).ordered order).updateCurrentFile = some current from same]
      exact if_neg (Nat.ne_of_gt (sound.known current same))
  have idle (order : Option (List Int)) : WatchSound ((context.received message).ordered order) watch :=
    ⟨sound.sends,fun current same => Nat.lt_succ_of_lt (sound.known current same),
      fun file read => (Option.some_ne_none file (read.symm.trans (unread order))).elim,sound.awaits⟩
  cases offered with
  | misread package unlisted => cases quiet
  | empty without => exact ⟨watch,received context.updateableFilesDownloadOrder watch,idle context.updateableFilesDownloadOrder⟩
  | refused listed refused => exact ⟨watch,received none watch,idle none⟩
  | @begun files listed some' orders =>
    have continued : ∃ watch', Sees ((context.received message).ordered (some (Context.boardOrder answers message.listLen))) _
        watch watch' ∧ WatchSound _ watch' :=
      (continuePackageDownload_cases rfl listed).watched rfl listed sound.sends (Nat.lt_succ_self context.nextBlock)
        (Option.some_ne_none _) (fetchable orders) quiet
    obtain ⟨watch',sees,sound'⟩ := continued
    exact ⟨watch',(received _ watch).trans sees,sound'⟩

/-- As long as the program has not ended in a fault. -/
def Watched.Sound (watched : Watched) : Prop := watched.context.fault = none → WatchSound watched.context watched.watch

theorem Stepped.watched {event : Event} (stepped : Stepped platform context answers event after) (sound : WatchSound context watch)
    (fetchable : SelectsFetchable platform context (answers,event)) (quiet : after.fault = none) :
    ∃ watch', Sees context after (watch.hear context event) watch' ∧ WatchSound after watch' := by
  cases stepped with
  | fileUpdateAvailable offered => exact offered.watched sound fetchable quiet
  | fileChunk arrived => exact arrived.watched sound fetchable quiet
  | unhandledMessage => exact ⟨watch,.refl,sound⟩
  | fileDownloaded reported => exact reported.watched sound fetchable quiet
  | freeContext freed =>
    cases freed with
    | dangling same gone => cases quiet
    | misread checked package unlisted => cases quiet
    | freed checked released =>
      exact ⟨_,⟨_,rfl,rfl⟩,sound.sends,fun _ same => (Option.some_ne_none _ same.symm).elim,
        fun _ read => (Option.some_ne_none _ read.symm).elim,fun some' => (some' rfl).elim⟩

theorem step_watchSound (watched : Watched) (call : Call) (sound : watched.Sound)
    (fetchable : SelectsFetchable platform watched.context (call.answers,call.event)) (delivers : call.delivers) :
    (watched.step platform call).Sound := by
  intro quiet
  obtain ⟨context,watch⟩ := watched
  obtain ⟨answers,event,lost⟩ := call
  change (step platform context (answers,event)).fault = none at quiet
  have kept : ∃ watch', Sees context (step platform context (answers,event))
      (if context.freed then watch else watch.hear context event) watch' ∧ WatchSound (step platform context (answers,event)) watch' := by
    cases ended : context.freed with
    | true =>
      have same := @step_ended platform context (answers,event) (.inr ended)
      rw [same] at quiet ⊢
      exact ⟨watch,.refl,sound quiet⟩
    | false =>
      have quiet' : context.fault = none := by
        by_contra fallen
        rw [step_ended (answers,event) (.inl fallen)] at quiet
        exact fallen quiet
      exact (step_cases quiet' ended (answers,event)).watched (sound quiet') fetchable quiet
  obtain ⟨watch',sees,sound'⟩ := kept
  unfold Watched.step
  rw [see_delivered delivers,sees.final]
  exact sound'

end Steps

section Examples

theorem delivers_all (answers : Answers) (event : Event) : Call.delivers {answers := answers,event := event} := fun _ _ _ => rfl

end Examples

end XivelyClient.Sft
