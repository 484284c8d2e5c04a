import XivelyClient.Lib.Fair
import XivelyClient.Threads.Shutdown

/-! The pool comes to its end: when the main thread has stopped the workers, every schedule in which all threads get their turns leads to the
state in which it is gone. -/
namespace XivelyClient.ThreadPool
open Runs

variable {Job : Type}

section Total

/-- A sum over the threads of a pool. -/
def total : Nat → (Nat → Nat) → Nat
  | 0,_ => 0
  | n + 1,f => total n f + f n

variable {n tid : Nat} {f g : Nat → Nat}

theorem total_congr (same : ∀ t < n, g t = f t) : total n g = total n f := by
  induction n with
  | zero => rfl
  | succ n ih => rw [total,total,same n (Nat.lt_succ_self n),ih fun t below => same t (Nat.lt_succ_of_lt below)]

theorem total_one (inside : tid < n) (others : ∀ t, t ≠ tid → g t = f t) : total n g + f tid = total n f + g tid := by
  induction n with
  | zero => exact absurd inside (Nat.not_lt_zero tid)
  | succ n ih =>
    rw [total,total]
    by_cases last : tid = n
    · subst last
      rw [total_congr fun t below => others t (Nat.ne_of_lt below)]
      omega
    · have := ih (by omega)
      rw [others n (Ne.symm last)]
      omega

end Total

def Phase.left : Phase → Nat
  | .own => 4
  | .shared => 3
  | .looks => 2
  | .last => 1
  | .exited => 0

/-- The turns that a worker takes at most when it has been told to stop, and that of the main thread which releases its dispatcher. -/
def Worker.left (worker : Worker Job) : Nat :=
  worker.phase.left + 2 * worker.queue.length + worker.running.elim 0 (fun _ => 1) + (!worker.freed).toNat

def Main.left (size : Nat) : Main → Nat
  | .working | .stopping _ => 0
  | .joining next => size - next + 2
  | .draining => 1
  | .done => 0

namespace Pool

def left (pool : Pool Job) : Nat :=
  total pool.size (fun tid => (pool.workers tid).left) + 2 * pool.shared.length + pool.running.elim 0 (fun _ => 1) + pool.main.left pool.size

/-- The workers that the main thread has told to stop. -/
def Stops (pool : Pool Job) : Prop :=
  match pool.main with
  | .working => True
  | .stopping next => ∀ tid < next, (pool.workers tid).stop = true
  | _ => ∀ tid < pool.size, (pool.workers tid).stop = true

/-- The main thread is behind the loop that stops the workers. -/
def Told (pool : Pool Job) : Prop := pool.main ≠ .working ∧ ∀ next, pool.main ≠ .stopping next

/-- A thread that does not wait for another one. -/
def Ready (pool : Pool Job) : Thread → Prop
  | .main => pool.running ≠ none ∨ pool.main ≠ .done ∧ ∀ tid < pool.size, pool.main = .joining tid → (pool.workers tid).phase = .exited
  | .worker tid => tid < pool.size ∧ (pool.workers tid).phase ≠ .exited

def turn : Thread → Event Job
  | .main => .main
  | .worker tid => .worker tid

variable {pool after : Pool Job} {tid : Nat} {worker : Worker Job}

section Posts

/-- The threads are where they were. -/
structure SamePlaces (pool after : Pool Job) : Prop where
  main : after.main = pool.main
  running : after.running = pool.running
  size : after.size = pool.size
  phase : ∀ t, (after.workers t).phase = (pool.workers t).phase
  stop : ∀ t, (after.workers t).stop = (pool.workers t).stop

theorem left_setWorker (inside : tid < pool.size) (worker : Worker Job) :
    (pool.setWorker tid worker).left + (pool.workers tid).left = pool.left + worker.left := by
  have sum := @total_one pool.size tid (fun t => (pool.workers t).left) (fun t => (Function.update pool.workers tid worker t).left) inside
    (fun t other => by rw [Function.update_of_ne other])
  rw [Function.update_self] at sum
  change total pool.size (fun t => (Function.update pool.workers tid worker t).left) + 2 * pool.shared.length +
    pool.running.elim 0 (fun _ => 1) + pool.main.left pool.size + _ = total pool.size (fun t => (pool.workers t).left) +
      2 * pool.shared.length + pool.running.elim 0 (fun _ => 1) + pool.main.left pool.size + _
  omega

theorem left_shared (shared : List Job) : {pool with shared := shared}.left + 2 * pool.shared.length = pool.left + 2 * shared.length := by
  change total pool.size (fun t => (pool.workers t).left) + 2 * shared.length + pool.running.elim 0 (fun _ => 1) + pool.main.left pool.size +
    _ = total pool.size (fun t => (pool.workers t).left) + 2 * pool.shared.length + pool.running.elim 0 (fun _ => 1) +
      pool.main.left pool.size + _
  omega

theorem postShared_left (pool : Pool Job) (job : Job) : (pool.postShared job).left = pool.left + 2 := by
  have longer := @left_shared Job pool (pool.shared ++ [job])
  rw [List.length_append,List.length_singleton] at longer
  change Pool.left {pool with shared := pool.shared ++ [job]} = _
  omega

theorem samePlaces_setWorker (phase : worker.phase = (pool.workers tid).phase) (stop : worker.stop = (pool.workers tid).stop) :
    SamePlaces pool (pool.setWorker tid worker) := by
  refine ⟨rfl,rfl,rfl,fun t => ?_,fun t => ?_⟩
  all_goals
    by_cases self : t = tid
    · subst self
      simp [setWorker,phase,stop]
    · simp [setWorker,self]

theorem postOwn_spec (inside : tid < pool.size) (job : Job) :
    SamePlaces pool (pool.postOwn tid job) ∧ (pool.postOwn tid job).left ≤ pool.left + 2 := by
  have noted : ∃ log, (if (pool.workers tid).phase = .exited then pool.note (.late tid job) else pool) = {pool with log := log} := by
    split
    · exact ⟨_,rfl⟩
    · exact ⟨pool.log,rfl⟩
  obtain ⟨log,noted⟩ := noted
  rw [postOwn,noted]
  split
  · exact ⟨⟨rfl,rfl,rfl,fun _ => rfl,fun _ => rfl⟩,Nat.le_add_right pool.left 2⟩
  · have same := @samePlaces_setWorker Job pool tid {pool.workers tid with queue := (pool.workers tid).queue ++ [job]} rfl rfl
    refine ⟨⟨rfl,rfl,rfl,same.phase,same.stop⟩,?_⟩
    have sum := left_setWorker inside {pool.workers tid with queue := (pool.workers tid).queue ++ [job]}
    have own : Worker.left {pool.workers tid with queue := (pool.workers tid).queue ++ [job]} = (pool.workers tid).left + 2 := by
      simp only [Worker.left,List.length_append,List.length_singleton]
      omega
    change (pool.setWorker tid {pool.workers tid with queue := (pool.workers tid).queue ++ [job]}).left ≤ _
    omega

/-- A post puts a call into one queue at most. -/
theorem post_spec (pool : Pool Job) (target : Target) (job : Job) :
    SamePlaces pool (pool.post target job) ∧ (pool.post target job).left ≤ pool.left + 2 := by
  have shared : SamePlaces pool (pool.postShared job) ∧ (pool.postShared job).left ≤ pool.left + 2 :=
    ⟨⟨rfl,rfl,rfl,fun _ => rfl,fun _ => rfl⟩,Nat.le_of_eq (postShared_left pool job)⟩
  cases target with
  | mainThread => exact ⟨⟨rfl,rfl,rfl,fun _ => rfl,fun _ => rfl⟩,Nat.le_add_right pool.left 2⟩
  | anyThread => exact shared
  | thread tid =>
    rw [post]
    split
    · rename_i valid
      exact postOwn_spec valid.1 job
    · exact shared

end Posts

section Turns

/-- What a turn of a worker does. -/
structure Moved (pool after : Pool Job) (tid : Nat) (worker : Worker Job) : Prop where
  workers : after.workers = Function.update pool.workers tid worker
  main : after.main = pool.main
  running : after.running = pool.running
  size : after.size = pool.size
  stop : worker.stop = (pool.workers tid).stop
  less : (pool.workers tid).stop = true → (pool.workers tid).phase ≠ .exited →
    worker.left + 2 * after.shared.length < (pool.workers tid).left + 2 * pool.shared.length
  rests : (pool.workers tid).phase = .exited → (pool.workers tid).running = none → after = pool

theorem takeOwn_moved {next : Phase} (quiet : (pool.workers tid).running = none) (lower : next.left < (pool.workers tid).phase.left) :
    ∃ worker, Moved pool (pool.takeOwn tid next) tid worker := by
  have looking : (pool.workers tid).phase ≠ .exited := fun exited => by
    rw [exited] at lower
    exact Nat.not_lt_zero _ lower
  rw [takeOwn]
  split
  · rename_i empty
    refine ⟨_,rfl,rfl,rfl,rfl,rfl,fun _ _ => ?_,fun exited => absurd exited looking⟩
    simp only [Worker.left,setWorker]
    omega
  · rename_i job queue found
    refine ⟨_,rfl,rfl,rfl,rfl,rfl,fun _ _ => ?_,fun exited => absurd exited looking⟩
    simp only [Worker.left,setWorker,note,found,quiet,List.length_cons,Option.elim]
    omega

theorem workerStep_moved (pool : Pool Job) (tid : Nat) : ∃ worker, Moved pool (pool.workerStep tid) tid worker := by
  rw [workerStep]
  split
  · rename_i job running
    refine ⟨_,rfl,rfl,rfl,rfl,rfl,fun _ _ => ?_,fun _ quiet => by rw [running] at quiet; cases quiet⟩
    have lower : (if (pool.workers tid).phase = .shared then Phase.looks else (pool.workers tid).phase).left ≤ (pool.workers tid).phase.left := by
      split
      · rename_i shared
        rw [shared]
        decide
      · exact Nat.le_refl _
    simp only [Worker.left,setWorker,running,Option.elim]
    omega
  · rename_i quiet
    split
    · rename_i phase
      refine ⟨_,rfl,rfl,rfl,rfl,rfl,fun stop _ => ?_,fun exited => by rw [phase] at exited; cases exited⟩
      simp only [Worker.left,setWorker,phase,stop,if_true,Phase.left]
      omega
    · rename_i phase
      exact takeOwn_moved quiet (by rw [phase]; decide)
    · rename_i phase
      rw [takeShared]
      split
      · refine ⟨_,rfl,rfl,rfl,rfl,rfl,fun _ _ => ?_,fun exited => by rw [phase] at exited; cases exited⟩
        simp only [Worker.left,setWorker,phase,Phase.left]
        omega
      · rename_i job shared found
        refine ⟨_,rfl,rfl,rfl,rfl,rfl,fun _ _ => ?_,fun exited => by rw [phase] at exited; cases exited⟩
        simp only [Worker.left,setWorker,note,quiet,found,List.length_cons,Option.elim]
        omega
    · rename_i phase
      exact takeOwn_moved quiet (by rw [phase]; decide)
    · rename_i phase
      refine ⟨pool.workers tid,(Function.update_eq_self tid pool.workers).symm,rfl,rfl,rfl,rfl,fun _ looking => absurd phase looking,
        fun _ _ => rfl⟩

theorem Moved.left (moved : Moved pool after tid worker) (inside : tid < pool.size) :
    after.left + (pool.workers tid).left + 2 * pool.shared.length = pool.left + worker.left + 2 * after.shared.length := by
  have sum := left_setWorker inside worker
  have rest : after.left + 2 * pool.shared.length = (pool.setWorker tid worker).left + 2 * after.shared.length := by
    rw [Pool.left,Pool.left,moved.workers,moved.main,moved.running,moved.size]
    simp only [setWorker]
    omega
  omega

theorem Moved.phase (moved : Moved pool after tid worker) {t : Nat} (other : t ≠ tid) : after.workers t = pool.workers t := by
  rw [moved.workers,Function.update_of_ne other]

theorem Moved.kept (moved : Moved pool after tid worker) (t : Nat) : (after.workers t).stop = (pool.workers t).stop := by
  rw [moved.workers]
  by_cases self : t = tid
  · subst self
    rw [Function.update_self,moved.stop]
  · rw [Function.update_of_ne self]

/-- What a turn of the main thread does behind the loop that stops the workers. -/
structure Ended (pool after : Pool Job) : Prop where
  told : Told after
  size : after.size = pool.size
  phase : ∀ t, (after.workers t).phase = (pool.workers t).phase
  stop : ∀ t, (after.workers t).stop = (pool.workers t).stop
  most : after.left ≤ pool.left
  less : Ready pool .main → after.left < pool.left

theorem Ended.of_less (told : Told after) (size : after.size = pool.size) (phase : ∀ t, (after.workers t).phase = (pool.workers t).phase)
    (stop : ∀ t, (after.workers t).stop = (pool.workers t).stop) (less : after.left < pool.left) : Ended pool after :=
  ⟨told,size,phase,stop,Nat.le_of_lt less,fun _ => less⟩

theorem Ended.of_waits (told : Told pool) (waits : ¬ Ready pool .main) : Ended pool pool :=
  ⟨told,rfl,fun _ => rfl,fun _ => rfl,Nat.le_refl _,fun ready => absurd ready waits⟩

theorem Told.of_main {main : Main} (at_ : after.main = main) (working : main ≠ .working) (stopping : ∀ next, main ≠ .stopping next) :
    Told after := ⟨at_ ▸ working,fun next => at_ ▸ stopping next⟩

theorem freed_less (inside : tid < pool.size) (freed : (pool.workers tid).freed = false) :
    (pool.setWorker tid {pool.workers tid with freed := true}).left < pool.left := by
  have sum := left_setWorker inside {pool.workers tid with freed := true}
  have own : Worker.left {pool.workers tid with freed := true} + 1 = (pool.workers tid).left := by simp [Worker.left,freed]
  omega

theorem gone_less (inside : tid < pool.size) (main : pool.main = .joining tid) :
    Pool.left {pool.setWorker tid {pool.workers tid with gone := true} with main := .joining (tid + 1)} < pool.left := by
  have sum := left_setWorker inside {pool.workers tid with gone := true}
  have own : Worker.left {pool.workers tid with gone := true} = (pool.workers tid).left := rfl
  have next : Pool.left {pool.setWorker tid {pool.workers tid with gone := true} with main := .joining (tid + 1)} + 1 =
      (pool.setWorker tid {pool.workers tid with gone := true}).left := by
    simp only [Pool.left,setWorker,main,Main.left]
    omega
  omega

theorem mainStep_ended (told : Told pool) : Ended pool pool.mainStep := by
  rw [mainStep]
  split
  · rename_i job running
    refine Ended.of_less told rfl (fun _ => rfl) (fun _ => rfl) ?_
    simp only [Pool.left,running,Option.elim]
    omega
  · rename_i main
    exact absurd main told.1
  · rename_i tid _ main
    exact absurd main (told.2 tid)
  · rename_i tid quiet main
    split
    · rename_i inside
      dsimp only
      split
      · rename_i looking
        refine Ended.of_waits told fun ready => ?_
        exact ready.elim (fun running => running quiet) fun free => looking (free.2 tid inside main)
      · split
        · rename_i freed
          have same := @samePlaces_setWorker Job pool tid {pool.workers tid with freed := true} rfl rfl
          exact Ended.of_less told rfl same.phase same.stop (freed_less inside freed)
        · have same := @samePlaces_setWorker Job pool tid {pool.workers tid with gone := true} rfl rfl
          exact Ended.of_less (Told.of_main rfl (by simp) (by simp)) rfl same.phase same.stop (gone_less inside main)
    · rename_i all
      refine Ended.of_less (Told.of_main rfl (by simp) (by simp)) rfl (fun _ => rfl) (fun _ => rfl) ?_
      simp only [Pool.left,main,Main.left]
      omega
  · rename_i quiet main
    split
    · refine Ended.of_less (Told.of_main rfl (by simp) (by simp)) rfl (fun _ => rfl) (fun _ => rfl) ?_
      simp only [Pool.left,main,Main.left]
      omega
    · rename_i job shared found
      refine Ended.of_less (Told.of_main main (by simp) (by simp)) rfl (fun _ => rfl) (fun _ => rfl) ?_
      simp only [Pool.left,note,found,quiet,List.length_cons,Option.elim]
      omega
  · rename_i quiet main
    exact Ended.of_waits told fun ready => ready.elim (fun running => running quiet) fun free => free.1 main

end Turns

section Runs

theorem Stops.all (stops : Stops pool) (told : Told pool) : ∀ tid < pool.size, (pool.workers tid).stop = true := by
  rw [Stops] at stops
  cases main : pool.main with
  | working => exact absurd main told.1
  | stopping next => exact absurd main (told.2 next)
  | joining | draining | done => rwa [main] at stops

theorem Stops.of_all (all : ∀ tid < pool.size, (pool.workers tid).stop = true) (told : Told pool) : Stops pool := by
  rw [Stops]
  cases main : pool.main with
  | working => trivial
  | stopping next => exact absurd main (told.2 next)
  | joining | draining | done => exact all

theorem Stops.same (stops : Stops pool) (main : after.main = pool.main) (size : after.size = pool.size)
    (kept : ∀ t, (after.workers t).stop = (pool.workers t).stop) : Stops after := by
  rw [Stops] at stops ⊢
  simp only [main,size,kept]
  exact stops

theorem Stops.mainStep (stops : Stops pool) : Stops pool.mainStep := by
  by_cases told : Told pool
  · have ended := mainStep_ended told
    refine Stops.of_all (fun tid inside => ?_) ended.told
    rw [ended.stop]
    exact stops.all told tid (ended.size ▸ inside)
  · rw [Pool.mainStep]
    split
    · exact stops.same rfl rfl fun _ => rfl
    · split
      · exact stops
      · exact stops.same rfl rfl fun _ => rfl
    · rename_i next _ main
      rw [Stops,main] at stops
      split
      · intro t below
        change (Function.update pool.workers next _ t).stop = true
        by_cases self : t = next
        · subst self
          rw [Function.update_self]
        · rw [Function.update_of_ne self]
          exact stops t (by omega)
      · rename_i all
        exact fun t inside => stops t (Nat.lt_of_lt_of_le inside (Nat.le_of_not_lt all))
    · rename_i main
      exact absurd (Told.of_main main (by simp) (by simp)) told
    · rename_i main
      exact absurd (Told.of_main main (by simp) (by simp)) told
    · rename_i main
      exact absurd (Told.of_main main (by simp) (by simp)) told

theorem Stops.step (stops : Stops pool) (event : Event Job) : Stops (pool.step event) := by
  cases event with
  | post thread target job =>
    have same := (post_spec pool target job).1
    exact stops.same same.main same.size same.stop
  | destroy => exact fun t below => absurd below (Nat.not_lt_zero t)
  | main => exact stops.mainStep
  | worker tid =>
    rw [Pool.step]
    split
    · obtain ⟨worker,moved⟩ := workerStep_moved pool tid
      exact stops.same moved.main moved.size moved.kept
    · exact stops

/-- A call that is posted takes two turns: that in which it is taken out, and its return. -/
def cost : Event Job → Nat
  | .post .. => 2
  | _ => 0

/-- What a step does when the workers have been told to stop. -/
structure Nears (pool after : Pool Job) (event : Event Job) : Prop where
  told : Told after
  size : after.size = pool.size
  most : after.left ≤ pool.left + cost event
  less : ∀ thread, event = turn thread → Ready pool thread → after.left < pool.left
  ready : ∀ thread, event ≠ turn thread → Ready pool thread → Ready after thread

theorem Ready.same {thread : Thread} (ready : Ready pool thread) (main : after.main = pool.main) (running : after.running = pool.running)
    (size : after.size = pool.size) (phase : ∀ t, (pool.workers t).phase = .exited → (after.workers t).phase = .exited)
    (own : ∀ tid, thread = .worker tid → (after.workers tid).phase = (pool.workers tid).phase) : Ready after thread := by
  cases thread with
  | main =>
    rcases ready with busy | free
    · exact .inl (running ▸ busy)
    · exact .inr ⟨main ▸ free.1,fun t inside waits => phase t (free.2 t (size ▸ inside) (main ▸ waits))⟩
  | worker tid => exact ⟨size ▸ ready.1,own tid rfl ▸ ready.2⟩

theorem nears_same (told : Told pool) {event : Event Job} (other : ∀ thread, event = turn thread → ¬ Ready pool thread) :
    Nears pool pool event :=
  ⟨told,rfl,Nat.le_add_right _ _,fun thread turn ready => absurd ready (other thread turn),fun _ _ => id⟩

theorem nears (ends : Ends pool) (stops : Stops pool) (told : Told pool) {event : Event Job} (may : Enabled pool event) :
    Nears pool (pool.step event) event := by
  cases event with
  | post thread target job =>
    obtain ⟨same,most⟩ := post_spec pool target job
    refine ⟨Told.of_main same.main told.1 told.2,same.size,most,fun thread turn => ?_,fun thread _ ready => ?_⟩
    · cases thread <;> cases turn
    · exact ready.same same.main same.running same.size (fun t exited => (same.phase t).trans exited) fun t _ => same.phase t
  | destroy => exact absurd may.1 told.1
  | main =>
    have ended := mainStep_ended told
    refine ⟨ended.told,ended.size,Nat.le_trans ended.most (Nat.le_add_right _ _),fun thread turn ready => ?_,fun thread other ready => ?_⟩
    · cases thread with
      | main => exact ended.less ready
      | worker tid => cases turn
    · cases thread with
      | main => exact absurd rfl other
      | worker tid => exact ⟨ended.size.symm ▸ ready.1,(ended.phase tid).symm ▸ ready.2⟩
  | worker tid =>
    rw [Pool.step]
    split
    · rename_i inside
      obtain ⟨worker,moved⟩ := workerStep_moved pool tid
      by_cases exited : (pool.workers tid).phase = .exited
      · rw [moved.rests exited ((ends.tidy tid).exited exited).1]
        refine nears_same told fun thread turn ready => ?_
        cases thread with
        | main => cases turn
        | worker tid' =>
          cases turn
          exact ready.2 exited
      · have sum := moved.left inside
        have less := moved.less (stops.all told tid inside) exited
        refine ⟨Told.of_main moved.main told.1 told.2,moved.size,by omega,fun thread _ _ => by omega,fun thread other ready => ?_⟩
        refine ready.same moved.main moved.running moved.size (fun t out => ?_) fun t own => ?_
        · rwa [moved.phase fun self : t = tid => exited (self ▸ out)]
        · subst own
          rw [moved.phase fun self : t = tid => other (self ▸ rfl)]
    · rename_i outside
      refine nears_same told fun thread turn ready => ?_
      cases thread with
      | main => cases turn
      | worker tid' =>
        cases turn
        exact outside ready.1

/-- The pool is on its way to its end. -/
structure Ending (size : Nat) (pool : Pool Job) : Prop where
  ends : Ends pool
  stops : Stops pool
  told : Told pool
  size : pool.size = size

variable {size : Nat} {events : List (Event Job)}

theorem Ending.step (ending : Ending size pool) {event : Event Job} (may : Enabled pool event) : Ending size (pool.step event) := by
  have nears := nears ending.ends ending.stops ending.told may
  exact ⟨ending.ends.step event may,ending.stops.step event,nears.told,nears.size.trans ending.size⟩

/-- The threads of a pool. -/
def Has (size : Nat) : Thread → Prop
  | .main => True
  | .worker tid => tid < size

/-- No two threads wait for each other: the main thread waits for a worker that can go on. -/
theorem Ending.ready (ending : Ending size pool) (going : pool.main ≠ .done) : ∃ thread, Has size thread ∧ Ready pool thread := by
  by_cases free : ∀ tid < pool.size, pool.main = .joining tid → (pool.workers tid).phase = .exited
  · exact ⟨.main,trivial,.inr ⟨going,free⟩⟩
  · simp only [not_forall] at free
    obtain ⟨tid,inside,_,looking⟩ := free
    exact ⟨.worker tid,ending.size ▸ inside,inside,looking⟩

theorem done_step (done : pool.main = .done) {event : Event Job} (may : Enabled pool event) : (pool.step event).main = .done := by
  cases event with
  | post thread target job => exact (post_spec pool target job).1.main.trans done
  | destroy =>
    rw [may.1] at done
    cases done
  | main =>
    rw [Pool.step,Pool.mainStep,done]
    cases running : pool.running with
    | none => exact done
    | some job => rfl
  | worker tid =>
    rw [Pool.step]
    split
    · obtain ⟨worker,moved⟩ := workerStep_moved pool tid
      exact moved.main.trans done
    · exact done

theorem size_step (pool : Pool Job) (event : Event Job) : (pool.step event).size = pool.size := by
  cases event with
  | post thread target job => exact (post_spec pool target job).1.size
  | destroy => rfl
  | main =>
    rw [Pool.step,Pool.mainStep]
    split
    · rfl
    · split <;> rfl
    · split <;> rfl
    · split
      · dsimp only
        split
        · rfl
        · split <;> rfl
      · rfl
    · split <;> rfl
    · rfl
  | worker tid =>
    rw [Pool.step]
    split
    · obtain ⟨worker,moved⟩ := workerStep_moved pool tid
      exact moved.size
    · rfl

theorem stops_create (size : Nat) : Stops (create size : Pool Job) := trivial

theorem descends (size : Nat) : Descends step Enabled (Ending size) (fun pool : Pool Job => pool.main = .done) left cost turn Ready (Has size) where
  keep _ _ ending may := ending.step may
  most _ _ ending may := (nears ending.ends ending.stops ending.told may).most
  less pool thread ending ready := by
    have may : Enabled pool (turn thread) := by cases thread <;> trivial
    exact (nears ending.ends ending.stops ending.told may).less thread rfl ready
  stays _ _ thread ending may := (nears ending.ends ending.stops ending.told may).ready thread
  someone _ := Ending.ready
  finished _ _ _ may done := done_step done may

/-- Under every fair schedule the pool comes to its end: no thread waits for ever, and what the handles post is all that can delay it. -/
theorem pool_ends {rounds : List (List (Event Job))} (admissible : Admissible step Enabled (create size) (events ++ rounds.flatten))
    (told : Told (final step (create size) events)) (fair : ∀ round ∈ rounds, ∀ thread, Has size thread → turn thread ∈ round)
    (enough : (final step (create size) events).left + costs cost rounds.flatten ≤ rounds.length) :
    (final step (create size) (events ++ rounds.flatten)).main = .done := by
  obtain ⟨before,behind⟩ := admissible_append.mp admissible
  have keep (pool : Pool Job) (event : Event Job) (sound : Ends pool ∧ Stops pool ∧ pool.size = size) (may : Enabled pool event) :
      Ends (pool.step event) ∧ Stops (pool.step event) ∧ (pool.step event).size = size :=
    ⟨sound.1.step event may,sound.2.1.step event,(size_step pool event).trans sound.2.2⟩
  obtain ⟨ends,stops,same⟩ := (always_of_step keep ⟨ends_create size,stops_create size,rfl⟩ before).last
  rw [final_append]
  exact (descends size).rounds ⟨ends,stops,told,same⟩ behind fair enough

/-- Two workers with sixteen turns left when they have been told to stop. The call that one of them is at posts another one, which takes two
more. -/
theorem pool_ends_two : (final step (create 2) ((twoWorkers ++ [.main,.main,.main]) ++
    ([.post (.worker 1) (.thread 0) 11,.main,.worker 0,.worker 1] :: List.replicate 17 [.main,.worker 0,.worker 1]).flatten)).main = .done := by
  refine pool_ends ?_ (@Told.of_main Nat _ (.joining 0) (by decide +kernel) (by decide) (by simp)) ?_ (by decide +kernel)
  · refine admissible_append.mpr ⟨admissible_append.mpr ⟨twoWorkers_enabled,trivial,trivial,trivial,trivial⟩,
      ⟨by decide +kernel,by decide +kernel⟩,?_⟩
    simp [Admissible,Enabled,List.replicate]
  · intro round comes thread has
    have turns : .main ∈ round ∧ .worker 0 ∈ round ∧ .worker 1 ∈ round := by
      obtain rfl | same := List.mem_cons.mp comes
      · simp
      · rw [(List.mem_replicate.mp same).2]
        simp
    cases thread with
    | main => exact turns.1
    | worker tid =>
      obtain rfl | rfl : tid = 0 ∨ tid = 1 := Nat.le_one_iff_eq_zero_or_eq_one.mp (Nat.le_of_lt_succ has)
      · exact turns.2.1
      · exact turns.2.2

end Runs

end Pool

end XivelyClient.ThreadPool
