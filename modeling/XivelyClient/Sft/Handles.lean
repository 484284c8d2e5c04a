import XivelyClient.Sft.Calls
import XivelyClient.Lib.Runs

/-! The handles of files: one is open at most, what is written goes to it, and it is closed once. -/
namespace XivelyClient.Sft

/-- What an effect does to the handle that is open, with the resource it was opened for. There is no result when a second
handle is opened, when something is written to another handle or for another resource, and when another handle is closed. An
invalid handle may be closed. -/
def hold (opened : Option (Nat × Name)) : Effect → Option (Option (Nat × Name))
  | .opened (some handle) resource => if opened = none then some (some (handle,resource)) else none
  | .wrote handle resource _ _ _ => if opened ≠ none ∧ opened.map Prod.fst = handle ∧ opened.map Prod.snd = some resource then
      some opened else none
  | .closed (some handle) => if opened.map Prod.fst = some handle then some none else none
  | _ => some opened

def replay (effects : List Effect) : Option (Option (Nat × Name)) := effects.foldlM hold none

/-- No rule about handles was broken, and none is open when the context is gone. -/
def HandlesDisciplined (context : Context) : Prop :=
  ∃ opened, replay context.effects = some opened ∧ (context.freed = true → opened = none)

/-- The handle of the context is open, and it was opened for the file of this name. -/
def OpenFor (context : Context) (name : Name) : Prop :=
  ∃ handle, context.updateFileHandle = some handle ∧ Effect.opened (some handle) name ∈ context.effects

/-- What keeps the handles: a first chunk comes while no file is open, another one while its file is, and the revision of a
file that the application downloaded is stored while no file is open. -/
def HandlesKept (context : Context) (call : Answers × Event) : Prop :=
  context.fault = none → context.freed = false →
  match call with
  | (_,.fileChunk chunk) => ∀ name, chunk.name = some name → Names context (some name) →
      if chunk.offset = 0 then context.updateFileHandle = none else OpenFor context name
  | (answers,.fileDownloaded filename successfully) => successfully = true → Names context filename →
      answers.revisionOpens = true → (∀ file, context.currentFile = some file → file.revision ≠ none) →
      context.updateFileHandle = none
  | _ => True

structure HandlesSound (context : Context) (opened : Option (Nat × Name)) : Prop where
  replayed : replay context.effects = some opened
  handle : context.updateFileHandle = opened.map Prod.fst
  fresh : ∀ handle resource, Effect.opened (some handle) resource ∈ context.effects → handle < context.nextHandle
  unique : ∀ handle resource other, opened = some (handle,resource) → Effect.opened (some handle) other ∈ context.effects →
    other = resource
  ended : context.freed = true → opened = none

section Replay

variable {platform : Platform} {answers : Answers} {context before after : Context} {opened : Option (Nat × Name)}
  {effects more : List Effect} {file : FileDesc} {name : Name} {chunk : FileChunk} {fed : List UInt8}

theorem replay_append (replayed : replay effects = some opened) : replay (effects ++ more) = more.foldlM hold opened := by
  unfold replay at *
  rw [List.foldlM_append,replayed]
  rfl

/-- What is no opening, no writing and no closing. -/
def Effect.idle : Effect → Bool
  | .opened _ _ | .wrote _ _ _ _ _ | .closed _ => false
  | _ => true

theorem hold_idle (all : more.all Effect.idle = true) : more.foldlM hold opened = some opened := by
  induction more with
  | nil => rfl
  | cons effect more ih =>
    obtain ⟨idle,all⟩ := Bool.and_eq_true_iff.mp (List.all_cons.symm.trans all)
    have held : hold opened effect = some opened := by
      cases effect <;> first | rfl | exact (Bool.false_ne_true idle).elim
    rw [List.foldlM_cons,held]
    exact ih all

theorem not_mem_idle {handle : Option Nat} (all : more.all Effect.idle = true) : Effect.opened handle name ∉ more :=
  fun member => Bool.false_ne_true (List.all_eq_true.mp all _ member)

/-- Everything but the files. -/
theorem HandlesSound.idle (sound : HandlesSound before opened) (idle : Appends Effect.idle before after)
    (handle : after.updateFileHandle = before.updateFileHandle) (next : after.nextHandle = before.nextHandle)
    (freed : after.freed = before.freed) : HandlesSound after opened := by
  obtain ⟨more,same,all⟩ := idle
  have opened_before (handle : Nat) (resource : Name) (member : Effect.opened (some handle) resource ∈ after.effects) :
      Effect.opened (some handle) resource ∈ before.effects := by
    rw [same] at member
    exact (List.mem_append.mp member).resolve_right (not_mem_idle all)
  refine ⟨?_,handle.trans sound.handle,?_,?_,?_⟩
  · rw [same,replay_append sound.replayed,hold_idle all]
  · intro handle resource member
    rw [next]
    exact sound.fresh handle resource (opened_before handle resource member)
  · exact fun handle resource other is member => sound.unique handle resource other is (opened_before handle other member)
  · exact fun ended => sound.ended (freed.symm.trans ended)

theorem HandlesSound.emit (sound : HandlesSound context opened) (all : effects.all Effect.idle = true) :
    HandlesSound (context.emit effects) opened := sound.idle (.emit all) rfl rfl rfl

/-- Bytes that go on the checksum. -/
theorem HandlesSound.checksummed (sound : HandlesSound context opened) (fed : Option (List UInt8)) (bytes : List UInt8) :
    HandlesSound ({context with checksumContext := fed}.emit [.checksumUpdate bytes]) opened :=
  sound.idle ⟨_,rfl,rfl⟩ rfl rfl rfl

theorem HandlesSound.finalized (sound : HandlesSound context opened) (file : FileDesc) :
    HandlesSound (context.finalized file) opened := sound.idle ⟨_,rfl,rfl⟩ rfl rfl rfl

theorem idle_of_rests (effect : Effect) (rests : (!effect.storage) = true) : effect.idle = true := by
  cases effect <;> first | rfl | exact (Bool.false_ne_true rests).elim

theorem HandlesSound.rests (sound : HandlesSound before opened) (rests : Rests before after) : HandlesSound after opened :=
  sound.idle (rests.effects.mono idle_of_rests) rests.updateFileHandle rests.nextHandle rests.freed

theorem reports_idle (phase : FileStatusPhase) (code : FileStatusCode) :
    (context.reports file phase code).all Effect.idle = true := reports_all context file phase code fun _ _ => rfl

/-- A file is opened when none is. -/
theorem HandlesSound.begun (sound : HandlesSound context none) (alive : context.freed = false) (first : chunk.offset = 0) :
    HandlesSound (context.begun name chunk) (some (context.nextHandle,name)) := by
  unfold Context.begun
  rw [if_pos first]
  refine ⟨?_,rfl,?_,?_,fun ended => (Bool.false_ne_true (alive.symm.trans ended)).elim⟩
  · exact replay_append sound.replayed
  · intro handle resource member
    rcases List.mem_append.mp member with old | new
    · exact Nat.lt_succ_of_lt (sound.fresh handle resource old)
    · rcases List.mem_cons.mp new with same | later
      · cases same
        exact Nat.lt_succ_self _
      · exact (not_mem_idle (show [Effect.checksumInit].all Effect.idle = true from rfl) later).elim
  · intro handle resource other is member
    cases is
    rcases List.mem_append.mp member with old | new
    · exact (Nat.lt_irrefl _ (sound.fresh _ _ old)).elim
    · rcases List.mem_cons.mp new with same | later
      · cases same
        rfl
      · exact (not_mem_idle (show [Effect.checksumInit].all Effect.idle = true from rfl) later).elim

/-- The chunk is written to the file that it is for. -/
theorem written_handles (sound : HandlesSound context opened) (alive : context.freed = false)
    (kept : if chunk.offset = 0 then context.updateFileHandle = none else OpenFor context name) :
    ∃ handle, HandlesSound (context.written answers name chunk) (some (handle,name)) := by
  have begun : ∃ handle, HandlesSound (context.begun name chunk) (some (handle,name)) := by
    by_cases first : chunk.offset = 0
    · rw [if_pos first] at kept
      cases opened with
      | none => exact ⟨_,sound.begun alive first⟩
      | some pair => exact (Option.some_ne_none _ (sound.handle.symm.trans kept)).elim
    · rw [if_neg first] at kept
      obtain ⟨handle,open',member⟩ := kept
      unfold Context.begun
      rw [if_neg first]
      cases opened with
      | none => exact (Option.some_ne_none _ (open'.symm.trans sound.handle)).elim
      | some pair =>
        obtain ⟨handle',resource⟩ := pair
        cases open'.symm.trans sound.handle
        cases sound.unique _ resource name rfl member
        exact ⟨_,sound⟩
  obtain ⟨handle,begun⟩ := begun
  refine ⟨handle,?_,begun.handle,?_,?_,begun.ended⟩
  · have held : hold (some (handle,name)) (.wrote (context.begun name chunk).updateFileHandle name chunk.offset chunk.chunk
        (answers.wrote chunk.chunk)) =
        some (some (handle,name)) := if_pos ⟨Option.some_ne_none _,begun.handle.symm,rfl⟩
    refine (replay_append begun.replayed).trans ?_
    rw [List.foldlM_cons,held]
    rfl
  · intro handle' resource member
    rcases List.mem_append.mp member with old | new
    · exact begun.fresh handle' resource old
    · cases List.mem_singleton.mp new
  · intro handle' resource other is member
    rcases List.mem_append.mp member with old | new
    · exact begun.unique handle' resource other is old
    · cases List.mem_singleton.mp new

theorem HandlesSound.unopened (sound : HandlesSound context opened) (closed : context.updateFileHandle = none) :
    HandlesSound (context.unopened name) none := by
  have none' : opened = none := by
    cases opened with
    | none => rfl
    | some pair => exact (Option.some_ne_none _ (sound.handle.symm.trans closed)).elim
  subst none'
  unfold Context.unopened
  refine ⟨replay_append sound.replayed,rfl,?_,fun _ _ _ is => (Option.some_ne_none _ is.symm).elim,fun _ => rfl⟩
  intro handle resource member
  rcases List.mem_append.mp member with old | new
  · exact sound.fresh handle resource old
  · cases List.mem_singleton.mp new

theorem HandlesSound.closed (sound : HandlesSound context opened) : HandlesSound context.closedFile none := by
  unfold Context.closedFile
  refine ⟨?_,rfl,?_,fun _ _ _ is => (Option.some_ne_none _ is.symm).elim,fun _ => rfl⟩
  · refine (replay_append sound.replayed).trans ?_
    rw [sound.handle]
    cases opened with
    | none => rfl
    | some pair =>
      have held : hold (some pair) (.closed (some pair.1)) = some none := if_pos rfl
      change (hold (some pair) (.closed (some pair.1))).bind _ = _
      rw [held]
      rfl
  · intro handle resource member
    rcases List.mem_append.mp member with old | new
    · exact sound.fresh handle resource old
    · cases List.mem_singleton.mp new

/-- The revision of a file is stored by a handle of its own. -/
theorem HandlesSound.revised (sound : HandlesSound context opened) (read : context.currentFile = some file)
    (closed : answers.revisionOpens = true → file.revision ≠ none → opened = none) :
    HandlesSound (context.currentFileRevisionHandling answers) opened := by
  obtain ⟨status,effects,next,said,stored,opens,same⟩ := @currentFileRevisionHandling_cases context file answers read
  have quiet : status.all Effect.idle = true := by
    rcases said with rfl | rfl
    · rfl
    · exact reports_idle _ _
  have told := sound.emit quiet
  have behind (handle : Nat) (resource : Name)
      (member : Effect.opened (some handle) resource ∈ context.effects ++ (status ++ effects)) :
      Effect.opened (some handle) resource ∈ context.effects ∨ Effect.opened (some handle) resource ∈ effects := by
    rcases List.mem_append.mp member with old | new
    · exact .inl old
    · exact .inr ((List.mem_append.mp new).resolve_left (not_mem_idle quiet))
  have replayed : replay ((context.effects ++ status) ++ effects) = effects.foldlM hold opened := replay_append told.replayed
  rw [List.append_assoc] at replayed
  rw [same]
  cases stored with
  | silent => exact ⟨replayed,sound.handle,fun handle resource member => sound.fresh handle resource
      ((behind handle resource member).resolve_right List.not_mem_nil),fun handle resource other is member =>
        sound.unique handle resource other is ((behind handle other member).resolve_right List.not_mem_nil),sound.ended⟩
  | refused resource =>
    have other (handle : Nat) (resource' : Name) : Effect.opened (some handle) resource' ∉ [Effect.opened none resource] := by simp
    exact ⟨replayed,sound.handle,fun handle resource' member => sound.fresh handle resource'
      ((behind handle resource' member).resolve_right (other handle resource')),fun handle resource' other' is member =>
        sound.unique handle resource' other' is ((behind handle other' member).resolve_right (other handle other')),sound.ended⟩
  | stored resource bytes ok =>
    obtain ⟨opens,revised⟩ := opens (Nat.lt_succ_self _)
    cases closed opens revised
    refine ⟨replayed.trans ?_,sound.handle,?_,fun _ _ _ is => (Option.some_ne_none _ is.symm).elim,fun _ => rfl⟩
    · simp [hold]
    · intro handle resource' member
      rcases behind handle resource' member with old | new
      · exact Nat.lt_succ_of_lt (sound.fresh handle resource' old)
      · simp only [List.mem_cons,List.not_mem_nil,or_false,reduceCtorEq,Effect.opened.injEq,Option.some.injEq] at new
        rw [new.1]
        exact Nat.lt_succ_self _

/-- The package goes on behind a file whose revision has been stored. -/
theorem handles_continue (sound : HandlesSound context opened) (read : context.currentFile = some file)
    (closed : answers.revisionOpens = true → file.revision ≠ none → opened = none) :
    HandlesSound ((context.currentFileRevisionHandling answers).continuePackageDownload platform answers) opened := by
  have held := @currentFileRevisionHandling_holds context file answers read
  obtain ⟨current,same,found⟩ := currentFile_eq read
  obtain ⟨message,files,package,listed,_⟩ := package_of_file found
  exact (sound.revised read closed).rests
    (continuePackageDownload_cases (held.updateMessageFua.trans package) listed).rests

end Replay

section Calls

variable {platform : Platform} {answers : Answers} {context after : Context} {opened : Option (Nat × Name)} {file : FileDesc}
  {name : Name} {chunk : FileChunk}

/-- The handles are in order, or the program ended in a fault with no rule broken. -/
def HandlesOrderly (context : Context) : Prop :=
  (∃ opened, HandlesSound context opened) ∨
    context.fault ≠ none ∧ context.freed = false ∧ ∃ opened, replay context.effects = some opened

theorem HandlesOrderly.disciplined (orderly : HandlesOrderly context) : HandlesDisciplined context := by
  rcases orderly with ⟨opened,sound⟩ | ⟨_,alive,opened,replayed⟩
  · exact ⟨opened,sound.replayed,sound.ended⟩
  · exact ⟨opened,replayed,fun ended => (Bool.false_ne_true (alive.symm.trans ended)).elim⟩

theorem HandlesSound.abort {fault : Fault} (sound : HandlesSound context opened) : HandlesSound (context.abort fault) opened :=
  sound.idle (.refl context) rfl rfl rfl

theorem ChunkOutcome.handles (outcome : ChunkOutcome platform context answers file name chunk after)
    (sound : HandlesSound context opened) (alive : context.freed = false) (read : context.currentFile = some file)
    (kept : if chunk.offset = 0 then context.updateFileHandle = none else OpenFor context name) :
    ∃ opened, HandlesSound after opened := by
  have failed (context' : Context) (opened' : Option (Nat × Name)) (code : FileStatusCode) (phase : FileStatusPhase)
      (sound : HandlesSound context' opened') :
      HandlesSound (context'.emit (context.reports file phase code ++ [.packageDownloadFailure])) opened' := by
    refine sound.emit ?_
    rw [List.all_append,reports_idle]
    rfl
  have finalized {fed : List UInt8} : ∃ handle, HandlesSound (context.verified answers name chunk fed file) (some (handle,name)) := by
    obtain ⟨handle,written⟩ := @written_handles answers context opened name chunk sound alive kept
    have taken : HandlesSound (context.taken answers name chunk fed) (some (handle,name)) := written.checksummed _ chunk.chunk
    exact ⟨handle,taken.finalized file⟩
  have shut {fed : List UInt8} : HandlesSound (context.shut answers name chunk fed file) none := by
    obtain ⟨handle,verified⟩ := finalized
    exact (verified.emit (reports_idle _ _)).closed
  cases outcome with
  | unopened first refused =>
    rw [if_pos first] at kept
    exact ⟨none,failed _ none _ _ (sound.unopened kept)⟩
  | unwritten opens refused =>
    obtain ⟨handle,written⟩ := @written_handles answers context opened name chunk sound alive kept
    exact ⟨_,failed _ _ _ _ written⟩
  | unbegun later writes absent =>
    obtain ⟨handle,written⟩ := @written_handles answers context opened name chunk sound alive kept
    exact ⟨_,written.abort⟩
  | @more fed opens writes begun less =>
    obtain ⟨handle,written⟩ := @written_handles answers context opened name chunk sound alive kept
    have taken : HandlesSound (context.taken answers name chunk fed) (some (handle,name)) := written.checksummed _ chunk.chunk
    exact ⟨_,taken.emit (requests_all platform context file _ _ fun _ _ => rfl)⟩
  | mismatch opens writes begun whole wrong =>
    obtain ⟨handle,verified⟩ := finalized
    exact ⟨_,failed _ _ _ _ verified⟩
  | unclosed opens writes begun whole right refused => exact ⟨none,shut.emit (reports_idle _ _)⟩
  | done opens writes begun whole right closes =>
    exact ⟨none,handles_continue shut (currentFile_of_holds read shut_holds) fun _ _ => rfl⟩

theorem Stepped.handles {event : Event} (stepped : Stepped platform context answers event after)
    (sound : HandlesSound context opened) (quiet : context.fault = none) (alive : context.freed = false)
    (kept : HandlesKept context (answers,event)) : HandlesOrderly after := by
  have kept := kept quiet alive
  cases stepped with
  | @fileUpdateAvailable message after offered =>
    have received (order : Option (List Int)) : HandlesSound ((context.received message).ordered order) opened := by
      unfold Context.received
      split <;> exact sound.idle ⟨_,rfl,rfl⟩ rfl rfl rfl
    cases offered with
    | misread package unlisted => exact .inl ⟨opened,sound.abort⟩
    | empty without => exact .inl ⟨opened,received context.updateableFilesDownloadOrder⟩
    | refused listed refused => exact .inl ⟨opened,received none⟩
    | begun listed some' orders => exact .inl ⟨opened,(received _).rests (continuePackageDownload_cases rfl listed).rests⟩
  | fileChunk arrived =>
    cases arrived with
    | absent none' => exact .inl ⟨opened,sound⟩
    | dangling same gone => exact .inl ⟨opened,sound.abort⟩
    | unexpected read other => exact .inl ⟨opened,sound.emit (reports_idle _ _)⟩
    | @expected file name _ read named same outcome =>
      exact .inl (outcome.handles sound alive read (kept name same ⟨file,name,read,named,rfl⟩))
  | unhandledMessage => exact .inl ⟨opened,sound⟩
  | fileDownloaded reported =>
    cases reported with
    | absent none' success => exact .inl ⟨opened,sound⟩
    | missing none' failure => exact .inl ⟨opened,sound.abort⟩
    | dangling same gone => exact .inl ⟨opened,sound.abort⟩
    | unexpected read success other => exact .inl ⟨opened,sound.emit (reports_idle _ _)⟩
    | @done file name read success named same =>
      refine .inl ⟨opened,@handles_continue platform answers _ opened file (sound.emit (reports_idle _ _)) read fun opens revised => ?_⟩
      have closed := kept success ⟨file,name,read,named,same⟩ opens fun other read' => by
        cases read.symm.trans read'
        exact revised
      cases opened with
      | none => rfl
      | some pair => exact (Option.some_ne_none _ (sound.handle.symm.trans closed)).elim
    | @failed file read failure =>
      refine .inl ⟨opened,sound.emit ?_⟩
      rw [List.all_append,reports_idle]
      split
      · exact requests_all platform context file 0 _ fun _ _ => rfl
      · rfl
  | freeContext freed =>
    have idle {finals : List Effect} (checked : finals = [] ∨ ∃ file, finals = [.checksumFinal file]) :
        finals.all Effect.idle = true := by
      rcases checked with rfl | ⟨file,rfl⟩ <;> rfl
    cases freed with
    | dangling same gone => exact .inl ⟨opened,sound.abort⟩
    | @misread checksum finals block old checked package unlisted =>
      have closed := (sound.emit (idle checked)).closed.replayed
      refine .inr ⟨Option.some_ne_none _,alive,none,?_⟩
      exact (congrArg replay (List.append_assoc _ _ _).symm).trans closed
    | @freed checksum finals frees checked released =>
      have silent : frees.all Effect.idle = true := by
        rcases released with rfl | ⟨block,rfl⟩ <;> rfl
      have closed := (sound.emit (idle checked)).closed.emit silent
      have same : context.effects ++ (finals ++ [Effect.closed context.updateFileHandle] ++ frees) =
          context.effects ++ finals ++ [Effect.closed context.updateFileHandle] ++ frees := by
        rw [List.append_assoc context.effects,List.append_assoc context.effects]
      refine .inl ⟨none,(congrArg replay same).trans closed.replayed,rfl,fun handle resource member => ?_,
        fun _ _ _ is => (Option.some_ne_none _ is.symm).elim,fun _ => rfl⟩
      have member : Effect.opened (some handle) resource ∈
          context.effects ++ (finals ++ [Effect.closed context.updateFileHandle] ++ frees) := member
      rw [same] at member
      exact closed.fresh handle resource member

theorem step_handlesOrderly (call : Answers × Event) (orderly : HandlesOrderly context) (kept : HandlesKept context call) :
    HandlesOrderly (step platform context call) := by
  rcases @step_stepped platform context call with same | ⟨quiet,alive,stepped⟩
  · rwa [same]
  · rcases orderly with ⟨opened,sound⟩ | ⟨fallen,_⟩
    · exact stepped.handles sound quiet alive kept
    · exact (fallen quiet).elim

/-- In a run whose calls all keep the handles, one handle is open at most, every one that is opened is closed once, no later
than the context is freed, and everything is written to the handle that was opened for it. -/
theorem handlesDisciplined_run (platform : Platform) (fnSendMessage sftUrlHandlerCallback : Bool) (calls : List (Answers × Event))
    (kept : Runs.Admissible (step platform) HandlesKept (makeContext fnSendMessage sftUrlHandlerCallback) calls) :
    Runs.Always (step platform) HandlesDisciplined (makeContext fnSendMessage sftUrlHandlerCallback) calls := by
  have start : HandlesOrderly (makeContext fnSendMessage sftUrlHandlerCallback) :=
    .inl ⟨none,rfl,rfl,fun _ _ member => (List.not_mem_nil member).elim,
      fun _ _ _ is => (Option.some_ne_none _ is.symm).elim,fun _ => rfl⟩
  have always := Runs.always_of_step (fun _ call orderly kept => step_handlesOrderly call orderly kept) start kept
  exact always.mono fun _ orderly => orderly.disciplined

end Calls

section Examples

/-- The first byte of a file. -/
def firstByte (name : Name) : FileChunk where
  name := some name
  offset := 0
  chunk := [1]
  small := one_byte_small

theorem handlesDisciplined_run_one : Runs.Always (step plainPlatform) HandlesDisciplined (makeContext true false)
    [({},.fileUpdateAvailable (.ofFiles [fileNamed [97]])),({},.fileChunk (firstByte [97])),({},.freeContext)] := by
  apply handlesDisciplined_run plainPlatform true false
  refine ⟨fun _ _ => trivial,fun _ _ _ _ _ => ?_,fun _ _ => trivial,trivial⟩
  rw [if_pos (by decide)]
  decide

/-- The first chunk comes twice: the file is opened twice, and closed once. -/
theorem handlesDisciplined_run_twice : ¬Runs.Always (step plainPlatform) HandlesDisciplined (makeContext true false)
    [({},.fileUpdateAvailable (.ofFiles [fileNamed [97]])),({},.fileChunk (firstByte [97])),({},.fileChunk (firstByte [97]))] := by
  intro always
  obtain ⟨opened,replayed,_⟩ := always.last
  have broken : replay (Runs.final (step plainPlatform) (makeContext true false)
    [({},.fileUpdateAvailable (.ofFiles [fileNamed [97]])),({},.fileChunk (firstByte [97])),
      ({},.fileChunk (firstByte [97]))]).effects = none := by decide
  exact Option.some_ne_none opened (replayed.symm.trans broken)

end Examples

end XivelyClient.Sft
