import XivelyClient.Sft.Calls
import XivelyClient.Lib.Runs

/-! What the checksum of a file says of the file that was written. The bytes go on the checksum as they come, and into the file
where the chunk says. -/
namespace XivelyClient.Sft

/-- What has been written to one handle: the bytes by their place, where they are known, and how far they came in order. -/
structure Recording where
  image : Nat → Option UInt8 := fun _ => none
  position : Option Nat := some 0

namespace Recording

/-- A write that failed leaves no known byte where it went, and one that stopped none where it did not come to. -/
def write (recording : Recording) (offset : Nat) (bytes : List UInt8) (written : Option Nat) : Recording where
  image := fun place => if offset ≤ place ∧ place < offset + bytes.length then
      written.bind fun count => (bytes.take count)[place - offset]?
    else recording.image place
  position := recording.position.bind fun position =>
    if bytes = [] then some position
    else match written with
      | some count => if offset = position ∧ bytes.length ≤ count then some (position + bytes.length) else none
      | none => if position ≤ offset then some position else none

def see (handle : Nat) (recording : Recording) : Effect → Recording
  | .opened (some other) _ => if other = handle then {} else recording
  | .wrote (some other) _ offset bytes written => if other = handle then recording.write offset.toNat bytes written else recording
  | _ => recording

end Recording

def recording (handle : Nat) (effects : List Effect) : Recording := effects.foldl (Recording.see handle) {}

def feed (fed : List UInt8) : Effect → List UInt8
  | .checksumInit => []
  | .checksumUpdate bytes => fed ++ bytes
  | _ => fed

/-- The bytes on the checksum that was begun last. -/
def fedBytes (effects : List Effect) : List UInt8 := effects.foldl feed []

def openedFor (name : Name) (handle : Option Nat) : Effect → Option Nat
  | .opened (some other) resource => if resource = name then some other else handle
  | _ => handle

/-- The handle that a file was last opened with. -/
def lastOpened (name : Name) (effects : List Effect) : Option Nat := effects.foldl (openedFor name) none

/-- The bytes on the checksum are the file, from its first to its last byte. -/
def Faithful (file : FileDesc) (name : Name) (effects : List Effect) : Prop :=
  (fedBytes effects).length = file.sizeInBytes.toNat ∧ ∃ handle, lastOpened name effects = some handle ∧
    ∀ place < file.sizeInBytes.toNat, (recording handle effects).image place = (fedBytes effects)[place]?

/-- A file is reported as downloaded behind its checksum only when the checksum speaks of it. Where the application
downloads a file, no checksum stands before the report. -/
def IntegralTrace (effects : List Effect) : Prop :=
  ∀ earlier later file name revision,
    effects = earlier ++ .checksumFinal file :: .fileStatus name revision .downloaded .success :: later →
    Faithful file name earlier

def Integral (context : Context) : Prop := IntegralTrace context.effects

/-- The chunk is the whole file, or it goes on where the chunks before it, since the file was opened, have come to in order; it ends
where the file ends, and is written as a whole. -/
def InOrder (context : Context) (answers : Answers) (chunk : FileChunk) (file : FileDesc) : Prop :=
  (chunk.chunk = [] ∨ answers.leavesOut = 0) ∧
  if chunk.offset = 0 then chunk.chunk.length = file.sizeInBytes.toNat
  else ∃ handle name position, context.updateFileHandle = some handle ∧ chunk.name = some name ∧
    lastOpened name context.effects = some handle ∧ (recording handle context.effects).position = some position ∧
    (chunk.chunk = [] ∨ chunk.offset.toNat = position) ∧ position + chunk.chunk.length = file.sizeInBytes.toNat

/-- Whenever the checksum of a file is right, its chunks came in order. -/
def FinishesInOrder (platform : Platform) (context : Context) : Answers × Event → Prop
  | (answers,.fileChunk chunk) => context.fault = none → context.freed = false →
      ∀ file fed, Verifies platform context answers chunk file fed → InOrder context answers chunk file
  | _ => True

section Folds

variable {effects more : List Effect} {handle : Nat} {name : Name}

theorem recording_append : recording handle (effects ++ more) = more.foldl (Recording.see handle) (recording handle effects) :=
  List.foldl_append

theorem fedBytes_append : fedBytes (effects ++ more) = more.foldl feed (fedBytes effects) := List.foldl_append

theorem lastOpened_append : lastOpened name (effects ++ more) = more.foldl (openedFor name) (lastOpened name effects) :=
  List.foldl_append

/-- What does nothing to the files and the checksum. -/
theorem foldl_rests {α : Type*} {f : α → Effect → α} (rests : more.all (!·.storage) = true)
    (still : ∀ value effect, (!effect.storage) = true → f value effect = value) (value : α) : more.foldl f value = value := by
  induction more with
  | nil => rfl
  | cons effect more ih =>
    obtain ⟨quiet,rests⟩ := Bool.and_eq_true_iff.mp (List.all_cons.symm.trans rests)
    rw [List.foldl_cons,still value effect quiet]
    exact ih rests

theorem see_rests (value : Recording) (effect : Effect) (rests : (!effect.storage) = true) :
    Recording.see handle value effect = value := by
  cases effect <;> first | rfl | exact (Bool.false_ne_true rests).elim

theorem feed_rests (value : List UInt8) (effect : Effect) (rests : (!effect.storage) = true) : feed value effect = value := by
  cases effect <;> first | rfl | exact (Bool.false_ne_true rests).elim

/-- The bytes of one handle are the bytes on the checksum, as far as they came in order. -/
def Follows (recording : Recording) (fed : List UInt8) : Prop :=
  ∀ position, recording.position = some position → fed.length = position ∧
    ∀ place < position, recording.image place = fed[place]?

theorem Follows.start : Follows {} [] := by
  intro position same
  cases same
  exact ⟨rfl,fun place below => (Nat.not_lt_zero place below).elim⟩

theorem Follows.write {recording : Recording} {fed bytes : List UInt8} (follows : Follows recording fed) (offset count : Nat) :
    Follows (recording.write offset bytes (some count)) (fed ++ bytes) := by
  intro position same
  obtain ⟨before,reached,came⟩ := Option.bind_eq_some_iff.mp same
  clear same
  obtain ⟨long,image⟩ := follows before reached
  split at came
  · rename_i empty
    subst empty
    cases came
    rw [List.append_nil]
    refine ⟨long,fun place below => ?_⟩
    have outside : ¬(offset ≤ place ∧ place < offset + ([] : List UInt8).length) := fun both =>
      Nat.not_lt.mpr both.1 both.2
    exact (if_neg outside).trans (image place below)
  · dsimp only at came
    split at came
    · rename_i next
      obtain ⟨rfl,whole⟩ := next
      cases came
      refine ⟨by rw [List.length_append,long],fun place below => ?_⟩
      by_cases old : place < offset
      · have outside : ¬(offset ≤ place ∧ place < offset + bytes.length) := fun both => Nat.not_lt.mpr both.1 old
        rw [List.getElem?_append_left (by omega)]
        exact (if_neg outside).trans (image place old)
      · have inside : offset ≤ place ∧ place < offset + bytes.length := ⟨Nat.not_lt.mp old,below⟩
        rw [List.getElem?_append_right (by omega),long]
        refine (if_pos inside).trans ?_
        rw [Option.bind_some,List.take_of_length_le whole]
    · cases came

theorem write_position {recording : Recording} {position offset count : Nat} {bytes : List UInt8}
    (reached : recording.position = some position) (next : bytes = [] ∨ offset = position)
    (whole : bytes = [] ∨ bytes.length ≤ count) :
    (recording.write offset bytes (some count)).position = some (position + bytes.length) := by
  unfold Recording.write
  dsimp only
  rw [reached,Option.bind_some]
  by_cases empty : bytes = []
  · rw [if_pos empty,empty]
    rfl
  · rw [if_neg empty,if_pos ⟨next.resolve_left empty,whole.resolve_left empty⟩]

/-- A write that fails does not reach the bytes that came before it. -/
theorem Follows.fail {recording : Recording} {fed bytes : List UInt8} (follows : Follows recording fed) (offset : Nat) :
    Follows (recording.write offset bytes none) fed := by
  intro position same
  obtain ⟨before,reached,came⟩ := Option.bind_eq_some_iff.mp same
  clear same
  obtain ⟨long,image⟩ := follows before reached
  split at came
  · rename_i empty
    subst empty
    cases came
    refine ⟨long,fun place below => ?_⟩
    have outside : ¬(offset ≤ place ∧ place < offset + ([] : List UInt8).length) := fun both =>
      Nat.not_lt.mpr both.1 both.2
    exact (if_neg outside).trans (image place below)
  · dsimp only at came
    split at came
    · rename_i beyond
      cases came
      refine ⟨long,fun place below => ?_⟩
      have outside : ¬(offset ≤ place ∧ place < offset + bytes.length) := fun both => by omega
      exact (if_neg outside).trans (image place below)
    · cases came

end Folds

def Effect.isFinal : Effect → Bool
  | .checksumFinal _ => true
  | _ => false

/-- The last effect is no checksum that was made. -/
def Settled (effects : List Effect) : Prop := ∀ earlier file, effects ≠ earlier ++ [.checksumFinal file]

section Traces

variable {effects more : List Effect} {file : FileDesc}

theorem not_mem_final (all : more.all (!·.isFinal) = true) : Effect.checksumFinal file ∉ more :=
  fun member => Bool.false_ne_true (List.all_eq_true.mp all _ member)

theorem Settled.append (settled : Settled effects) (all : more.all (!·.isFinal) = true) : Settled (effects ++ more) := by
  intro earlier file same
  rcases List.append_eq_append_iff.mp same with ⟨between,_,same⟩ | ⟨between,before,same⟩
  · exact not_mem_final all (same ▸ List.mem_append_right _ List.mem_cons_self)
  · cases between with
    | nil => exact not_mem_final all (same.symm ▸ List.mem_cons_self)
    | cons first between =>
      rw [List.cons_append,List.cons.injEq] at same
      obtain ⟨rfl,same⟩ := same
      obtain ⟨rfl,_⟩ := List.append_eq_nil_iff.mp same.symm
      exact settled earlier file before

/-- Behind a checksum the next effect decides. -/
theorem IntegralTrace.final (integral : IntegralTrace effects) (all : more.all (!·.isFinal) = true)
    (faithful : ∀ name revision later, more = .fileStatus name revision .downloaded .success :: later →
      Faithful file name effects) : IntegralTrace (effects ++ .checksumFinal file :: more) := by
  intro earlier later file' name revision same
  rcases List.append_eq_append_iff.mp same with ⟨between,before,same⟩ | ⟨between,before,same⟩
  · cases between with
    | nil =>
      cases same
      rw [before,List.append_nil]
      exact faithful name revision later rfl
    | cons first between =>
      rw [List.cons_append,List.cons.injEq] at same
      exact (not_mem_final all (same.2 ▸ List.mem_append_right _ List.mem_cons_self)).elim
  · cases between with
    | nil =>
      cases same
      rw [List.append_nil] at before
      rw [← before]
      exact faithful name revision later rfl
    | cons first between =>
      cases between with
      | nil => cases same
      | cons second between =>
        rw [List.cons_append,List.cons_append,List.cons.injEq,List.cons.injEq] at same
        obtain ⟨rfl,rfl,same⟩ := same
        exact integral earlier between file' name revision before

theorem IntegralTrace.append (integral : IntegralTrace effects) (settled : Settled effects)
    (all : more.all (!·.isFinal) = true) : IntegralTrace (effects ++ more) := by
  intro earlier later file' name revision same
  rcases List.append_eq_append_iff.mp same with ⟨between,_,same⟩ | ⟨between,before,same⟩
  · exact (not_mem_final all (same ▸ List.mem_append_right _ List.mem_cons_self)).elim
  · cases between with
    | nil => exact (not_mem_final all (same.symm ▸ List.mem_cons_self)).elim
    | cons first between =>
      cases between with
      | nil =>
        cases same
        exact (settled earlier file' before).elim
      | cons second between =>
        rw [List.cons_append,List.cons_append,List.cons.injEq,List.cons.injEq] at same
        obtain ⟨rfl,rfl,same⟩ := same
        exact integral earlier between file' name revision before

end Traces

/-- What holds between the calls: the checksum and the file of the context go with the trace. -/
structure Tracked (context : Context) : Prop where
  fed : ∀ fed, context.checksumContext = some fed → fedBytes context.effects = fed
  follows : ∀ fed handle, context.checksumContext = some fed → context.updateFileHandle = some handle →
    Follows (recording handle context.effects) fed
  fresh : ∀ handle, context.updateFileHandle = some handle → handle < context.nextHandle
  integral : IntegralTrace context.effects
  settled : Settled context.effects

section Tracking

variable {platform : Platform} {answers : Answers} {context before after : Context} {file : FileDesc} {name : Name}
  {chunk : FileChunk} {fed : List UInt8} {effects : List Effect}

theorem rests_final (effect : Effect) (rests : (!effect.storage) = true) : (!effect.isFinal) = true := by
  cases effect <;> first | rfl | exact (Bool.false_ne_true rests).elim

theorem Tracked.rests (tracked : Tracked before) (rests : Rests before after) : Tracked after := by
  obtain ⟨more,same,all⟩ := rests.effects
  have unfinished : more.all (!·.isFinal) = true :=
    List.all_eq_true.mpr fun effect member => rests_final effect (List.all_eq_true.mp all effect member)
  refine ⟨fun fed begun => ?_,fun fed handle begun open' => ?_,fun handle open' => ?_,?_,?_⟩
  · rw [same,fedBytes_append,foldl_rests all feed_rests]
    exact tracked.fed fed (rests.checksumContext.symm.trans begun)
  · rw [same,recording_append,foldl_rests all see_rests]
    exact tracked.follows fed handle (rests.checksumContext.symm.trans begun) (rests.updateFileHandle.symm.trans open')
  · rw [rests.nextHandle]
    exact tracked.fresh handle (rests.updateFileHandle.symm.trans open')
  · rw [same]
    exact tracked.integral.append tracked.settled unfinished
  · rw [same]
    exact tracked.settled.append unfinished

theorem Tracked.emit (tracked : Tracked context) (rests : effects.all (!·.storage) = true) : Tracked (context.emit effects) :=
  tracked.rests (.emit rests)

theorem Tracked.abort {fault : Fault} (tracked : Tracked context) : Tracked (context.abort fault) :=
  ⟨tracked.fed,tracked.follows,tracked.fresh,tracked.integral,tracked.settled⟩

theorem reports_rests (phase : FileStatusPhase) (code : FileStatusCode) :
    (context.reports file phase code).all (!·.storage) = true := reports_all context file phase code fun _ _ => rfl

theorem Tracked.begun (tracked : Tracked context) : Tracked (context.begun name chunk) := by
  unfold Context.begun
  split
  · refine ⟨fun fed begun => ?_,fun fed handle begun open' => ?_,fun handle open' => ?_,?_,?_⟩
    · cases begun
      exact fedBytes_append
    · cases begun
      cases open'
      have recorded : recording context.nextHandle (context.effects ++
          [Effect.opened (some context.nextHandle) name,Effect.checksumInit]) = {} :=
        recording_append.trans (if_pos rfl)
      exact recorded ▸ Follows.start
    · cases open'
      exact Nat.lt_succ_self _
    · exact tracked.integral.append tracked.settled rfl
    · exact tracked.settled.append rfl
  · exact tracked

theorem see_wrote {handle : Nat} {resource : Name} {offset : UInt32} {bytes : List UInt8} {written : Option Nat}
    (recorded : Recording) : recorded.see handle (.wrote (some handle) resource offset bytes written) =
      recorded.write offset.toNat bytes written := if_pos rfl

theorem wrote_refused (refused : answers.writes = false) (bytes : List UInt8) : answers.wrote bytes = none :=
  if_neg (refused ▸ Bool.false_ne_true)

theorem wrote_some (writes : answers.writes = true) (bytes : List UInt8) :
    answers.wrote bytes = some (bytes.length - answers.leavesOut) := if_pos writes

theorem Tracked.refused (tracked : Tracked context) (refused : answers.writes = false) :
    Tracked (context.written answers name chunk) := by
  have begun : Tracked (context.begun name chunk) := tracked.begun
  refine ⟨fun fed same => ?_,fun fed handle same open' => ?_,begun.fresh,begun.integral.append begun.settled rfl,
    begun.settled.append rfl⟩
  · exact fedBytes_append.trans (begun.fed fed same)
  · have open' : (context.begun name chunk).updateFileHandle = some handle := open'
    have recorded := @recording_append (context.begun name chunk).effects
      [.wrote (context.begun name chunk).updateFileHandle name chunk.offset chunk.chunk (answers.wrote chunk.chunk)] handle
    rw [open',List.foldl_cons,see_wrote,List.foldl_nil] at recorded
    change Follows (recording handle ((context.begun name chunk).effects ++
      [.wrote (context.begun name chunk).updateFileHandle name chunk.offset chunk.chunk (answers.wrote chunk.chunk)])) fed
    rw [open',recorded,wrote_refused refused]
    exact (begun.follows fed handle same open').fail _

/-- The effects of a chunk that was written and is on the checksum. -/
theorem taken_effects : (context.taken answers name chunk fed).effects = (context.begun name chunk).effects ++
    [.wrote (context.begun name chunk).updateFileHandle name chunk.offset chunk.chunk (answers.wrote chunk.chunk),
      .checksumUpdate chunk.chunk] := by
  change ((context.begun name chunk).effects ++ _) ++ _ = _
  rw [List.append_assoc]
  rfl

theorem recording_taken {handle : Nat} (open' : (context.begun name chunk).updateFileHandle = some handle) :
    recording handle (context.taken answers name chunk fed).effects =
      (recording handle (context.begun name chunk).effects).write chunk.offset.toNat chunk.chunk (answers.wrote chunk.chunk) := by
  rw [taken_effects,recording_append,open',List.foldl_cons,see_wrote]
  rfl

theorem Tracked.taken (tracked : Tracked context) (writes : answers.writes = true)
    (begun : (context.begun name chunk).checksumContext = some fed) : Tracked (context.taken answers name chunk fed) := by
  have before : Tracked (context.begun name chunk) := tracked.begun
  refine ⟨fun fed' same => ?_,fun fed' handle same open' => ?_,before.fresh,?_,?_⟩
  · cases same
    rw [taken_effects,fedBytes_append,before.fed fed begun]
    rfl
  · cases same
    have open' : (context.begun name chunk).updateFileHandle = some handle := open'
    rw [recording_taken open',wrote_some writes]
    exact (before.follows fed handle begun open').write _ _
  · rw [taken_effects]
    exact before.integral.append before.settled rfl
  · rw [taken_effects]
    exact before.settled.append rfl

theorem Settled.final (all : (effects).all (!·.isFinal) = true) (some' : effects ≠ []) (trace : List Effect) :
    Settled (trace ++ .checksumFinal file :: effects) := by
  intro earlier file' same
  obtain ⟨first,more,rfl⟩ := List.exists_cons_of_ne_nil some'
  have longer : trace ++ .checksumFinal file :: first :: more = (trace ++ [.checksumFinal file,first]) ++ more := by
    rw [List.append_assoc]
    rfl
  rw [longer] at same
  have started : Settled (trace ++ [.checksumFinal file,first]) := by
    intro earlier file' same
    have last := congrArg List.getLast? same
    rw [List.getLast?_append,List.getLast?_append] at last
    cases Option.some.inj last
    exact not_mem_final all List.mem_cons_self
  rw [List.all_cons,Bool.and_eq_true_iff] at all
  exact started.append all.2 earlier file' same

/-- A checksum is made; what is said next must be true. -/
theorem Tracked.finalized (tracked : Tracked context) (rests : effects.all (!·.isFinal) = true) (some' : effects ≠ [])
    (faithful : ∀ name revision later, effects = .fileStatus name revision .downloaded .success :: later →
      Faithful file name context.effects)
    (gone : after.checksumContext = none) (handle : after.updateFileHandle = none ∨ after.updateFileHandle = context.updateFileHandle)
    (next : after.nextHandle = context.nextHandle) (same : after.effects = context.effects ++ .checksumFinal file :: effects) :
    Tracked after := by
  refine ⟨fun fed begun => ?_,fun fed handle begun => ?_,fun open' same' => ?_,?_,?_⟩
  · exact (Option.some_ne_none fed (begun.symm.trans gone)).elim
  · exact (Option.some_ne_none fed (begun.symm.trans gone)).elim
  · rw [next]
    rcases handle with none' | kept
    · exact (Option.some_ne_none open' (same'.symm.trans none')).elim
    · exact tracked.fresh open' (kept.symm.trans same')
  · rw [same]
    exact tracked.integral.final rests faithful
  · rw [same]
    exact Settled.final rests some' context.effects

theorem emit_nextHandle : (context.emit effects).nextHandle = context.nextHandle := rfl

theorem emit_updateFileHandle : (context.emit effects).updateFileHandle = context.updateFileHandle := rfl

theorem finalized_nextHandle : (context.finalized file).nextHandle = context.nextHandle := rfl

theorem finalized_updateFileHandle : (context.finalized file).updateFileHandle = context.updateFileHandle := rfl

theorem closedFile_nextHandle : context.closedFile.nextHandle = context.nextHandle := rfl

theorem shut_nextHandle : (context.shut answers name chunk fed file).nextHandle = (context.taken answers name chunk fed).nextHandle := by
  unfold Context.shut Context.verified
  rw [closedFile_nextHandle,emit_nextHandle,finalized_nextHandle]

theorem shut_effects : (context.shut answers name chunk fed file).effects = (context.taken answers name chunk fed).effects ++
    .checksumFinal file :: (context.reports file .downloaded .success ++
      [Effect.closed (context.begun name chunk).updateFileHandle]) := by
  unfold Context.shut Context.closedFile Context.verified Context.finalized Context.emit
  simp only [List.append_assoc,List.cons_append,List.nil_append]
  rfl

/-- When the chunks came in order the checksum speaks of the file. -/
theorem taken_faithful (tracked : Tracked context) (writes : answers.writes = true)
    (begun : (context.begun name chunk).checksumContext = some fed) (same : chunk.name = some name)
    (order : InOrder context answers chunk file) :
    Faithful file name (context.taken answers name chunk fed).effects := by
  have taken := tracked.taken writes begun
  obtain ⟨full,order⟩ := order
  have full : chunk.chunk = [] ∨ chunk.chunk.length ≤ chunk.chunk.length - answers.leavesOut :=
    full.imp_right fun none' => by rw [none',Nat.sub_zero]
  have reached : ∃ handle, (context.begun name chunk).updateFileHandle = some handle ∧
      lastOpened name (context.begun name chunk).effects = some handle ∧
      (recording handle (context.taken answers name chunk fed).effects).position = some file.sizeInBytes.toNat := by
    by_cases first : chunk.offset = 0
    · rw [if_pos first] at order
      have open' : (context.begun name chunk).updateFileHandle = some context.nextHandle := by
        unfold Context.begun
        rw [if_pos first]
        rfl
      have effects : (context.begun name chunk).effects =
          context.effects ++ [Effect.opened (some context.nextHandle) name,Effect.checksumInit] := by
        unfold Context.begun
        rw [if_pos first]
        rfl
      refine ⟨_,open',?_,?_⟩
      · rw [effects,lastOpened_append]
        exact if_pos rfl
      · rw [recording_taken open',effects,recording_append]
        have new : [Effect.opened (some context.nextHandle) name,Effect.checksumInit].foldl (Recording.see context.nextHandle)
            (recording context.nextHandle context.effects) = {} := if_pos rfl
        rw [new,wrote_some writes,write_position (show ({} : Recording).position = some 0 from rfl)
          (.inr (congrArg UInt32.toNat first)) full,Nat.zero_add,order]
    · have same' : context.begun name chunk = context := if_neg first
      rw [if_neg first] at order
      obtain ⟨handle,other,position,open',named,opened,reached,next,whole⟩ := order
      cases same.symm.trans named
      refine ⟨handle,same'.symm ▸ open',same'.symm ▸ opened,?_⟩
      rw [recording_taken (same'.symm ▸ open'),same',wrote_some writes,write_position reached next full,whole]
  obtain ⟨handle,open',opened,position⟩ := reached
  obtain ⟨long,image⟩ := taken.follows _ handle rfl open' _ position
  have whole := taken.fed _ rfl
  refine ⟨by rw [whole,long],handle,?_,fun place below => by rw [whole,image place below]⟩
  rw [taken_effects,lastOpened_append,opened]
  rfl

/-- The revision of a file goes to a handle that is not the one of the context. -/
theorem Tracked.revised (tracked : Tracked context) (read : context.currentFile = some file) :
    Tracked (context.currentFileRevisionHandling answers) := by
  obtain ⟨status,effects,next,said,stored,_,same⟩ := @currentFileRevisionHandling_cases context file answers read
  have quiet : status.all (!·.storage) = true := by
    rcases said with rfl | rfl
    · rfl
    · exact reports_rests _ _
  have told := tracked.emit quiet
  have later : context.nextHandle ≤ next := by
    cases stored <;> omega
  have unfinished : effects.all (!·.isFinal) = true := by
    cases stored <;> rfl
  have unfed (value : List UInt8) : effects.foldl feed value = value := by
    cases stored <;> rfl
  have elsewhere (handle : Nat) (old : handle < context.nextHandle) (value : Recording) :
      effects.foldl (Recording.see handle) value = value := by
    have other : context.nextHandle ≠ handle := Nat.ne_of_gt old
    cases stored <;> simp [Recording.see,other]
  have effects' : (context.currentFileRevisionHandling answers).effects = (context.emit status).effects ++ effects := by
    rw [same]
    exact (List.append_assoc _ _ _).symm
  have checksum : (context.currentFileRevisionHandling answers).checksumContext = context.checksumContext := by
    rw [same]
    rfl
  have handle : (context.currentFileRevisionHandling answers).updateFileHandle = context.updateFileHandle := by
    rw [same]
    rfl
  have nextHandle : (context.currentFileRevisionHandling answers).nextHandle = next := by
    rw [same]
    rfl
  refine ⟨fun fed begun => ?_,fun fed handle' begun open' => ?_,fun handle' open' => ?_,?_,?_⟩
  · rw [effects',fedBytes_append,unfed]
    exact told.fed fed (checksum.symm.trans begun)
  · rw [effects',recording_append,elsewhere handle' (tracked.fresh handle' (handle.symm.trans open'))]
    exact told.follows fed handle' (checksum.symm.trans begun) (handle.symm.trans open')
  · rw [nextHandle]
    exact Nat.lt_of_lt_of_le (tracked.fresh handle' (handle.symm.trans open')) later
  · rw [effects']
    exact told.integral.append told.settled unfinished
  · rw [effects']
    exact told.settled.append unfinished

/-- The package goes on behind a file whose revision has been stored. -/
theorem tracked_continue (tracked : Tracked context) (read : context.currentFile = some file) :
    Tracked ((context.currentFileRevisionHandling answers).continuePackageDownload platform answers) := by
  have held := @currentFileRevisionHandling_holds context file answers read
  obtain ⟨current,same,found⟩ := currentFile_eq read
  obtain ⟨message,files,package,listed,_⟩ := package_of_file found
  exact (tracked.revised read).rests
    (continuePackageDownload_cases (held.updateMessageFua.trans package) listed).rests

theorem ChunkOutcome.tracked (outcome : ChunkOutcome platform context answers file name chunk after) (tracked : Tracked context)
    (read : context.currentFile = some file) (named : file.name = some name) (same : chunk.name = some name)
    (order : ∀ fed, Verifies platform context answers chunk file fed → InOrder context answers chunk file) : Tracked after := by
  have failure (code : FileStatusCode) (phase : FileStatusPhase) :
      (context.reports file phase code ++ [Effect.packageDownloadFailure]).all (!·.storage) = true := by
    rw [List.all_append,reports_rests]
    rfl
  have shut {fed : List UInt8} (writes : answers.writes = true) (begun : (context.begun name chunk).checksumContext = some fed)
      (order : InOrder context answers chunk file) : Tracked (context.shut answers name chunk fed file) := by
    have unfinished : (context.reports file .downloaded .success ++
        [Effect.closed (context.begun name chunk).updateFileHandle]).all (!·.isFinal) = true := by
      rw [List.all_append,reports_all context file .downloaded .success fun _ _ => rfl]
      rfl
    refine (tracked.taken writes begun).finalized unfinished (by simp) (fun name' revision later said => ?_) rfl (.inl rfl)
      shut_nextHandle shut_effects
    -- only a file with a name is reported, and the chunk has the same name
    have here : Effect.fileStatus name' revision .downloaded .success = .fileStatus name revision .downloaded .success := by
      unfold Context.reports Context.createFileStatus at said
      rw [named] at said
      split at said
      · cases revised : file.revision with
        | none =>
          rw [revised] at said
          cases said
        | some other =>
          rw [revised] at said
          cases said
          rfl
      · cases said
    cases here
    exact taken_faithful tracked writes begun same order
  cases outcome with
  | unopened first refused =>
    have opened : Tracked (context.unopened name) := by
      refine ⟨fun fed begun => ?_,fun _ _ _ open' => (Option.some_ne_none _ open'.symm).elim,
        fun _ open' => (Option.some_ne_none _ open'.symm).elim,tracked.integral.append tracked.settled rfl,
        tracked.settled.append rfl⟩
      exact fedBytes_append.trans (tracked.fed fed begun)
    exact opened.emit (failure _ _)
  | unwritten opens refused => exact (tracked.refused refused).emit (failure _ _)
  | unbegun later writes absent =>
    have begun : context.begun name chunk = context := if_neg later
    have silent : (context.written answers name chunk).checksumContext = none := (congrArg Context.checksumContext begun).trans absent
    have before : Tracked (context.begun name chunk) := tracked.begun
    have written : Tracked (context.written answers name chunk) :=
      ⟨fun _ fed => (Option.some_ne_none _ (fed.symm.trans silent)).elim,
        fun _ _ fed => (Option.some_ne_none _ (fed.symm.trans silent)).elim,before.fresh,
        before.integral.append before.settled rfl,before.settled.append rfl⟩
    exact written.abort
  | @more fed opens writes begun less =>
    exact (tracked.taken writes begun).emit (requests_all platform context file _ _ fun _ _ => rfl)
  | @mismatch fed opens writes begun whole wrong =>
    have unfinished : (context.reports file .downloaded .fileChecksumMismatch ++
        [Effect.packageDownloadFailure]).all (!·.isFinal) = true := by
      rw [List.all_append,reports_all context file .downloaded .fileChecksumMismatch fun _ _ => rfl]
      rfl
    refine (tracked.taken writes begun).finalized unfinished (by simp) (fun name' revision later said => ?_) rfl
      (.inr (emit_updateFileHandle.trans finalized_updateFileHandle)) (emit_nextHandle.trans finalized_nextHandle)
      (List.append_assoc _ _ _)
    unfold Context.reports Context.createFileStatus at said
    split at said
    · split at said <;> cases said
    · cases said
  | @unclosed fed opens writes begun whole right refused =>
    exact (shut writes begun (order fed ⟨finishes_of_outcome read named same opens writes begun whole,right⟩)).emit
      (reports_rests _ _)
  | @done fed opens writes begun whole right closes =>
    exact tracked_continue (shut writes begun (order fed ⟨finishes_of_outcome read named same opens writes begun whole,right⟩))
      (currentFile_of_holds read shut_holds)

/-- A report on a file stands where no checksum was just made. -/
theorem Stepped.tracked {event : Event} (stepped : Stepped platform context answers event after) (tracked : Tracked context)
    (quiet : context.fault = none) (alive : context.freed = false)
    (order : FinishesInOrder platform context (answers,event)) :
    IntegralTrace after.effects ∧ (after.fault = none → after.freed = false → Tracked after) := by
  have sound (context' : Context) (tracked : Tracked context') :
      IntegralTrace context'.effects ∧ (context'.fault = none → context'.freed = false → Tracked context') :=
    ⟨tracked.integral,fun _ _ => tracked⟩
  cases stepped with
  | @fileUpdateAvailable message after offered =>
    have received (order : Option (List Int)) : Tracked ((context.received message).ordered order) := by
      unfold Context.received
      split <;> exact tracked.rests ⟨rfl,rfl,rfl,rfl,_,rfl,rfl⟩
    cases offered with
    | misread package unlisted => exact sound _ tracked.abort
    | empty without => exact sound _ (received context.updateableFilesDownloadOrder)
    | refused listed refused => exact sound _ (received none)
    | begun listed some' orders =>
      exact sound _ ((received _).rests (continuePackageDownload_cases rfl listed).rests)
  | fileChunk arrived =>
    cases arrived with
    | absent none' => exact sound _ tracked
    | dangling same gone => exact sound _ tracked.abort
    | unexpected read other => exact sound _ (tracked.emit (reports_rests _ _))
    | @expected file name _ read named same outcome =>
      exact sound _ (outcome.tracked tracked read named same (order quiet alive file))
  | unhandledMessage => exact sound _ tracked
  | fileDownloaded reported =>
    cases reported with
    | absent none' success => exact sound _ tracked
    | missing none' failure => exact sound _ tracked.abort
    | dangling same gone => exact sound _ tracked.abort
    | unexpected read success other => exact sound _ (tracked.emit (reports_rests _ _))
    | @done file name read success named same =>
      exact sound _ (@tracked_continue platform answers _ file (tracked.emit (reports_rests _ _)) read)
    | @failed file read failure =>
      refine sound _ (tracked.emit ?_)
      rw [List.all_append,reports_rests]
      split
      · exact requests_all platform context file 0 _ fun _ _ => rfl
      · rfl
  | freeContext freed =>
    cases freed with
    | dangling same gone => exact sound _ tracked.abort
    | @misread checksum finals block old checked package unlisted =>
      refine ⟨?_,fun fallen => (Option.some_ne_none _ fallen).elim⟩
      rcases checked with rfl | ⟨file,rfl⟩
      · exact tracked.integral.append tracked.settled rfl
      · exact @IntegralTrace.final _ [Effect.closed context.updateFileHandle] file tracked.integral rfl fun _ _ _ same => by cases same
    | @freed checksum finals frees checked released =>
      refine ⟨?_,fun _ alive' => (Bool.false_ne_true alive'.symm).elim⟩
      have unfinished : (Effect.closed context.updateFileHandle :: frees).all (!·.isFinal) = true := by
        rcases released with rfl | ⟨block,rfl⟩ <;> rfl
      rcases checked with rfl | ⟨file,rfl⟩
      · exact tracked.integral.append tracked.settled unfinished
      · exact tracked.integral.final unfinished fun _ _ _ same => by cases same

/-- In a run in which every file finishes in order, a file is reported behind its checksum only when the checksum speaks of what
was written. -/
theorem integral_run (platform : Platform) (fnSendMessage sftUrlHandlerCallback : Bool) (calls : List (Answers × Event))
    (order : Runs.Admissible (step platform) (FinishesInOrder platform) (makeContext fnSendMessage sftUrlHandlerCallback) calls) :
    Runs.Always (step platform) Integral (makeContext fnSendMessage sftUrlHandlerCallback) calls := by
  have start : IntegralTrace (makeContext fnSendMessage sftUrlHandlerCallback).effects ∧
      ((makeContext fnSendMessage sftUrlHandlerCallback).fault = none →
        (makeContext fnSendMessage sftUrlHandlerCallback).freed = false →
        Tracked (makeContext fnSendMessage sftUrlHandlerCallback)) := by
    have settled : Settled [] := fun earlier file same => by simp at same
    have integral : IntegralTrace [] := fun earlier later file name revision same => by simp at same
    exact ⟨integral,fun _ _ => ⟨fun _ same => (Option.some_ne_none _ same.symm).elim,
      fun _ _ same => (Option.some_ne_none _ same.symm).elim,fun _ same => (Option.some_ne_none _ same.symm).elim,integral,settled⟩⟩
  refine (Runs.always_of_step (I := fun context : Context => IntegralTrace context.effects ∧
    (context.fault = none → context.freed = false → Tracked context)) (fun context call sound order => ?_) start order).mono
    fun _ sound => sound.1
  rcases @step_stepped platform context call with same | ⟨quiet,alive,stepped⟩
  · rwa [same]
  · exact stepped.tracked (sound.2 quiet alive) quiet alive order

end Tracking

section Examples

/-- The last byte of a file of two, at some offset. -/
def lastByte (offset : UInt32) : FileChunk where
  name := some [97]
  offset := offset
  chunk := [2]
  small := by decide

def firstOfTwo : FileChunk where
  name := some [97]
  offset := 0
  chunk := [1]
  small := one_byte_small

def inTwoChunks (offset : UInt32) : List (Answers × Event) :=
  [({},.fileUpdateAvailable (.ofFiles [fileNamed [97]])),({},.fileChunk firstOfTwo),({},.fileChunk (lastByte offset))]

theorem integral_run_two : Runs.Always (step plainPlatform) Integral (makeContext true false) (inTwoChunks 1) := by
  apply integral_run plainPlatform true false
  refine ⟨trivial,?_,?_,trivial⟩
  · intro _ _ file fed verifies
    have current : (step plainPlatform (makeContext true false)
      ({},.fileUpdateAvailable (.ofFiles [fileNamed [97]]))).currentFile = some (fileNamed [97]) := by decide
    cases current.symm.trans verifies.1.read
    exact absurd verifies.1.whole (by decide)
  · intro _ _ file fed verifies
    have current : (step plainPlatform (step plainPlatform (makeContext true false)
      ({},.fileUpdateAvailable (.ofFiles [fileNamed [97]]))) ({},.fileChunk firstOfTwo)).currentFile = some (fileNamed [97]) := by
      decide
    cases current.symm.trans verifies.1.read
    refine ⟨.inr rfl,(if_neg (by decide)).mpr ⟨0,[97],1,?_⟩⟩
    decide

/-- The last byte comes with an offset behind the end: the file is reported, and has no second byte. -/
theorem integral_run_gap : ¬Runs.Always (step plainPlatform) Integral (makeContext true false) (inTwoChunks 5) := by
  intro always
  have faithful := always.last ((Runs.final (step plainPlatform) (makeContext true false) (inTwoChunks 5)).effects.take 9)
    ((Runs.final (step plainPlatform) (makeContext true false) (inTwoChunks 5)).effects.drop 11) (fileNamed [97]) [97] [49]
    (by decide)
  obtain ⟨_,handle,opened,image⟩ := faithful
  have first : lastOpened [97] ((Runs.final (step plainPlatform) (makeContext true false) (inTwoChunks 5)).effects.take 9) =
    some 0 := by decide
  cases first.symm.trans opened
  exact absurd (image 1 (by decide)) (by decide)

end Examples

end XivelyClient.Sft
