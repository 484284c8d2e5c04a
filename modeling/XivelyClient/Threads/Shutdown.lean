import XivelyClient.Threads.Pool

/-! What becomes of the handles that are posted to a pool of threads, in whatever order the threads go on. -/
namespace XivelyClient.ThreadPool
open Runs

variable {Job : Type}

section Logs

/-- What was put into a queue, in its order. -/
def posted (home : Home) (log : List (Happening Job)) : List Job :=
  log.filterMap fun | .posted home' job => if home' = home then some job else none | _ => none

/-- What was taken out of it to be executed. -/
def taken (home : Home) (log : List (Happening Job)) : List Job :=
  log.filterMap fun | .ran _ home' job => if home' = home then some job else none | _ => none

/-- What was put into the queue of a worker behind its last look. -/
def lateFor (tid : Nat) (log : List (Happening Job)) : List Job :=
  log.filterMap fun | .late tid' job => if tid' = tid then some job else none | _ => none

variable {home home' : Home} {log : List (Happening Job)} {job : Job} {thread : Thread} {tid tid' : Nat}

@[simp] theorem posted_posted : posted home (log ++ [.posted home' job]) = posted home log ++ if home' = home then [job] else [] := by
  rw [posted,List.filterMap_append]
  by_cases same : home' = home <;> simp [posted,same]

@[simp] theorem posted_late : posted home (log ++ [.late tid job]) = posted home log := by simp [posted]

@[simp] theorem posted_ran : posted home (log ++ [.ran thread home' job]) = posted home log := by simp [posted]

@[simp] theorem taken_posted : taken home (log ++ [.posted home' job]) = taken home log := by simp [taken]

@[simp] theorem taken_late : taken home (log ++ [.late tid job]) = taken home log := by simp [taken]

@[simp] theorem taken_ran : taken home (log ++ [.ran thread home' job]) = taken home log ++ if home' = home then [job] else [] := by
  rw [taken,List.filterMap_append]
  by_cases same : home' = home <;> simp [taken,same]

@[simp] theorem lateFor_posted : lateFor tid (log ++ [.posted home job]) = lateFor tid log := by simp [lateFor]

@[simp] theorem lateFor_ran : lateFor tid (log ++ [.ran thread home job]) = lateFor tid log := by simp [lateFor]

@[simp] theorem lateFor_late : lateFor tid (log ++ [.late tid' job]) = lateFor tid log ++ if tid' = tid then [job] else [] := by
  rw [lateFor,List.filterMap_append]
  by_cases same : tid' = tid <;> simp [lateFor,same]

end Logs

namespace Pool

def queueOf (pool : Pool Job) : Home → List Job
  | .context => pool.context
  | .shared => pool.shared
  | .own tid => (pool.workers tid).queue

/-- The threads that take calls out of a queue. -/
def Serves : Thread → Home → Prop
  | .main,.context | .main,.shared => True
  | .worker _,.shared => True
  | .worker tid,.own tid' => tid = tid'
  | _,_ => False

/-- Every queue holds, in their order, the calls that were put into it and not yet taken out, and each is taken out by a thread that serves
it. -/
structure Books (pool : Pool Job) : Prop where
  fifo : ∀ home, posted home pool.log = taken home pool.log ++ pool.queueOf home
  served : ∀ thread home job, .ran thread home job ∈ pool.log → Serves thread home

section Books

variable {pool after : Pool Job} {home : Home} {job : Job} {rest : List Job} {thread : Thread}

theorem Books.same (books : Books pool) (log : after.log = pool.log) (queues : ∀ home, after.queueOf home = pool.queueOf home) :
    Books after := by
  refine ⟨fun home => ?_,?_⟩
  · rw [log,queues]
    exact books.fifo home
  · rw [log]
    exact books.served

theorem Books.late {tid : Nat} (books : Books pool) (log : after.log = pool.log ++ [.late tid job])
    (queues : ∀ home, after.queueOf home = pool.queueOf home) : Books after := by
  refine ⟨fun home => ?_,fun thread home job' ran => ?_⟩
  · rw [log,queues,posted_late,taken_late]
    exact books.fifo home
  · rw [log] at ran
    exact books.served thread home job' (by simpa using ran)

theorem Books.post (books : Books pool) (log : after.log = pool.log ++ [.posted home job])
    (queues : ∀ home', after.queueOf home' = pool.queueOf home' ++ if home = home' then [job] else []) : Books after := by
  refine ⟨fun home' => ?_,fun thread home' job' ran => ?_⟩
  · rw [log,queues,posted_posted,taken_posted,books.fifo home',List.append_assoc]
  · rw [log] at ran
    exact books.served thread home' job' (by simpa using ran)

theorem Books.run (books : Books pool) (serves : Serves thread home) (log : after.log = pool.log ++ [.ran thread home job])
    (queue : pool.queueOf home = job :: rest) (queues : ∀ home', after.queueOf home' = if home = home' then rest else pool.queueOf home') :
    Books after := by
  refine ⟨fun home' => ?_,fun thread' home' job' ran => ?_⟩
  · rw [log,queues,posted_ran,taken_ran,books.fifo home']
    by_cases same : home = home'
    · subst same
      simp [queue]
    · simp [same]
  · rw [log,List.mem_append,List.mem_singleton] at ran
    rcases ran with before | new
    · exact books.served thread' home' job' before
    · cases new
      exact serves

end Books

section Steps

variable {pool : Pool Job} {tid : Nat} {worker : Worker Job}

/-- A worker is put in place of another one with its queue. -/
theorem queueOf_setWorker (same : worker.queue = (pool.workers tid).queue) (home : Home) :
    (pool.setWorker tid worker).queueOf home = pool.queueOf home := by
  cases home with
  | context | shared => rfl
  | own tid' =>
    change (Function.update pool.workers tid worker tid').queue = _
    by_cases self : tid' = tid
    · subst self
      rw [Function.update_self,same]
      rfl
    · rw [Function.update_of_ne self]
      rfl

theorem queueOf_own (worker : Worker Job) (home : Home) :
    (pool.setWorker tid worker).queueOf home = if .own tid = home then worker.queue else pool.queueOf home := by
  cases home with
  | context | shared => rfl
  | own tid' =>
    change (Function.update pool.workers tid worker tid').queue = _
    by_cases self : tid' = tid
    · subst self
      rw [Function.update_self,if_pos rfl]
    · rw [Function.update_of_ne self,if_neg (fun same => self (Home.own.inj same).symm)]
      rfl

theorem queueOf_note (pool : Pool Job) (happening : Happening Job) (home : Home) : (pool.note happening).queueOf home = pool.queueOf home := by
  cases home <;> rfl

theorem Books.postShared (books : Books pool) (job : Job) : Books (pool.postShared job) := by
  refine books.post rfl fun home => ?_
  cases home <;> simp [Pool.postShared,note,queueOf]

theorem Books.postOwn (books : Books pool) (tid : Nat) (job : Job) : Books (pool.postOwn tid job) := by
  have noted : Books (if (pool.workers tid).phase = .exited then pool.note (.late tid job) else pool) := by
    split
    · exact books.late rfl fun _ => rfl
    · exact books
  have kept : (if (pool.workers tid).phase = .exited then pool.note (.late tid job) else pool).workers = pool.workers := by
    split <;> rfl
  rw [Pool.postOwn]
  split
  · exact noted.same rfl fun _ => rfl
  · refine noted.post rfl fun home => (queueOf_note _ _ home).trans ((queueOf_own _ home).trans ?_)
    by_cases own : Home.own tid = home
    · subst own
      simp [queueOf,kept]
    · simp [own]

theorem Books.posts (books : Books pool) (target : Target) (job : Job) : Books (pool.post target job) := by
  cases target with
  | mainThread =>
    refine books.post rfl fun home => ?_
    cases home <;> simp [Pool.post,note,queueOf]
  | anyThread => exact books.postShared job
  | thread tid =>
    rw [Pool.post]
    split
    · exact books.postOwn tid job
    · exact books.postShared job

theorem Books.takeOwn (books : Books pool) (tid : Nat) (next : Phase) : Books (pool.takeOwn tid next) := by
  rw [Pool.takeOwn]
  split
  · exact books.same rfl (queueOf_setWorker rfl)
  · rename_i job queue found
    exact books.run (show Serves (.worker tid) (.own tid) from rfl) rfl found fun home => (queueOf_note _ _ home).trans (queueOf_own _ home)

theorem Books.takeShared (books : Books pool) (tid : Nat) : Books (pool.takeShared tid) := by
  rw [Pool.takeShared]
  split
  · exact books.same rfl (queueOf_setWorker rfl)
  · rename_i job shared found
    refine books.run (show Serves (.worker tid) .shared from trivial) rfl found fun home => (queueOf_note _ _ home).trans
      ((@queueOf_setWorker Job {pool with shared := shared} tid {pool.workers tid with running := some job} rfl home).trans ?_)
    cases home <;> rfl

theorem Books.workerStep (books : Books pool) (tid : Nat) : Books (pool.workerStep tid) := by
  rw [Pool.workerStep]
  split
  · exact books.same rfl (queueOf_setWorker rfl)
  · split
    · exact books.same rfl (queueOf_setWorker rfl)
    · exact books.takeOwn tid .shared
    · exact books.takeShared tid
    · exact books.takeOwn tid .exited
    · exact books

theorem Books.mainStep (books : Books pool) : Books pool.mainStep := by
  rw [Pool.mainStep]
  split
  · exact books.same rfl fun home => by cases home <;> rfl
  · split
    · exact books
    · rename_i job context found
      refine books.run (show Serves .main .context from trivial) rfl found fun home => ?_
      cases home <;> rfl
  · rename_i tid _ _
    have stopped : Books (pool.setWorker tid {pool.workers tid with stop := true}) := books.same rfl (queueOf_setWorker rfl)
    split
    · exact stopped.same rfl fun home => by cases home <;> rfl
    · exact books.same rfl fun home => by cases home <;> rfl
  · rename_i tid _ _
    have left : Books (pool.setWorker tid {pool.workers tid with gone := true}) := books.same rfl (queueOf_setWorker rfl)
    split
    · dsimp only
      split
      · exact books
      · split
        · exact books.same rfl (queueOf_setWorker rfl)
        · exact left.same rfl fun home => by cases home <;> rfl
    · exact books.same rfl fun home => by cases home <;> rfl
  · split
    · exact books.same rfl fun home => by cases home <;> rfl
    · rename_i job shared found
      refine books.run (show Serves .main .shared from trivial) rfl found fun home => ?_
      cases home <;> rfl
  · exact books

theorem Books.step (books : Books pool) (event : Event Job) : Books (pool.step event) := by
  cases event with
  | post thread target job => exact books.posts target job
  | destroy => exact books.same rfl fun home => by cases home <;> rfl
  | main => exact books.mainStep
  | worker tid =>
    rw [Pool.step]
    split
    · exact books.workerStep tid
    · exact books

end Steps

/-- How far the main thread has come with the end of the pool. -/
def Reached (pool : Pool Job) : Prop :=
  match pool.main with
  | .working => True
  | .stopping _ => pool.running = none
  | .joining next => pool.running = none ∧ ∀ tid < next, (pool.workers tid).gone = true
  | .draining => ∀ tid < pool.size, (pool.workers tid).gone = true
  | .done => pool.running = none ∧ pool.shared = [] ∧ ∀ tid < pool.size, (pool.workers tid).gone = true

/-- A worker leaves with an empty queue. What is in it then came late. -/
structure Tidy (late : List Job) (fault : Bool) (worker : Worker Job) : Prop where
  exited : worker.phase = .exited → worker.running = none ∧ (fault = false → worker.queue = late)
  looking : worker.phase ≠ .exited → late = []
  freed : worker.freed = true → worker.phase = .exited
  gone : worker.gone = true → worker.freed = true

structure Ends (pool : Pool Job) : Prop where
  tidy : ∀ tid, Tidy (lateFor tid pool.log) pool.fault (pool.workers tid)
  fault : pool.fault = true → ∃ tid, lateFor tid pool.log ≠ []
  reached : Reached pool

section Ends

variable {pool : Pool Job} {tid : Nat} {worker : Worker Job} {job : Job}

theorem Reached.setWorker (reached : Reached pool) (kept : (pool.workers tid).gone = true → worker.gone = true) :
    Reached (pool.setWorker tid worker) := by
  have gone (t : Nat) (left : (pool.workers t).gone = true) : (Function.update pool.workers tid worker t).gone = true := by
    by_cases self : t = tid
    · subst self
      rw [Function.update_self]
      exact kept left
    · rwa [Function.update_of_ne self]
  rw [Reached] at reached ⊢
  change match pool.main with | .working => True | .stopping _ => _ | .joining _ => _ | .draining => _ | .done => _
  cases main : pool.main with
  | working => trivial
  | stopping => rwa [main] at reached
  | joining next =>
    rw [main] at reached
    exact ⟨reached.1,fun t below => gone t (reached.2 t below)⟩
  | draining =>
    rw [main] at reached
    exact fun t inside => gone t (reached t inside)
  | done =>
    rw [main] at reached
    exact ⟨reached.1,reached.2.1,fun t inside => gone t (reached.2.2 t inside)⟩

theorem Ends.setWorker (ends : Ends pool) (tidy : Tidy (lateFor tid pool.log) pool.fault worker)
    (kept : (pool.workers tid).gone = true → worker.gone = true) : Ends (pool.setWorker tid worker) := by
  refine ⟨fun t => ?_,ends.fault,ends.reached.setWorker kept⟩
  change Tidy _ _ (Function.update pool.workers tid worker t)
  by_cases self : t = tid
  · subst self
    rw [Function.update_self]
    exact tidy
  · rw [Function.update_of_ne self]
    exact ends.tidy t

theorem Ends.note (ends : Ends pool) {happening : Happening Job} (early : ∀ tid, lateFor tid (pool.log ++ [happening]) = lateFor tid pool.log) :
    Ends (pool.note happening) := by
  refine ⟨fun tid => ?_,fun faulty => ?_,ends.reached⟩
  · change Tidy (lateFor tid (pool.log ++ [happening])) _ _
    rw [early]
    exact ends.tidy tid
  · obtain ⟨tid,late⟩ := ends.fault faulty
    exact ⟨tid,(early tid).symm ▸ late⟩

theorem Ends.shared (ends : Ends pool) (going : pool.main ≠ .done) (shared : List Job) : Ends {pool with shared := shared} := by
  refine ⟨ends.tidy,ends.fault,?_⟩
  have reached := ends.reached
  rw [Reached] at reached ⊢
  cases main : pool.main with
  | done => exact absurd main going
  | working => trivial
  | stopping | joining | draining =>
    rw [main] at reached
    exact reached

/-- Nothing is posted any more when the pool is gone. -/
theorem Ends.going (ends : Ends pool) {thread : Thread} {target : Target} (may : Enabled pool (.post thread target job)) :
    pool.main ≠ .done := by
  intro done
  have reached := ends.reached
  rw [Reached,done] at reached
  obtain ⟨quiet,_,gone⟩ := reached
  cases thread with
  | main => exact may.elim (fun working => by rw [done] at working; cases working) fun running => running quiet
  | worker tid =>
    have tidy := ends.tidy tid
    exact may.2 (tidy.exited (tidy.freed (tidy.gone (gone tid may.1)))).1

theorem Ends.postShared (ends : Ends pool) (going : pool.main ≠ .done) (job : Job) : Ends (pool.postShared job) :=
  (ends.shared going _).note fun _ => lateFor_posted

theorem Ends.postOwn (ends : Ends pool) (tid : Nat) (job : Job) : Ends (pool.postOwn tid job) := by
  have tidy := ends.tidy tid
  rw [Pool.postOwn]
  by_cases exited : (pool.workers tid).phase = .exited
  · have late (t : Nat) : lateFor t (pool.log ++ [.late tid job]) = lateFor t pool.log ++ if tid = t then [job] else [] := lateFor_late
    have others {t : Nat} (looking : (pool.workers t).phase ≠ .exited) : lateFor t (pool.log ++ [.late tid job]) = [] := by
      rw [late,(ends.tidy t).looking looking,if_neg (fun same : tid = t => looking (same ▸ exited))]
      rfl
    have came : ∃ t, lateFor t (pool.log ++ [.late tid job]) ≠ [] := ⟨tid,by simp⟩
    rw [if_pos exited]
    split
    · refine ⟨fun t => ⟨fun left => ⟨((ends.tidy t).exited left).1,fun sound => by cases sound⟩,others,(ends.tidy t).freed,(ends.tidy t).gone⟩,
        fun _ => came,ends.reached⟩
    · refine Ends.note ?_ fun _ => lateFor_posted
      refine ⟨fun t => ?_,fun _ => came,ends.reached.setWorker id⟩
      change Tidy (lateFor t (pool.log ++ [.late tid job])) pool.fault (Function.update pool.workers tid _ t)
      by_cases self : t = tid
      · subst self
        rw [Function.update_self,late,if_pos rfl]
        refine ⟨fun _ => ⟨(tidy.exited exited).1,fun sound => ?_⟩,fun looking => absurd exited looking,tidy.freed,tidy.gone⟩
        exact congrArg (· ++ [job]) ((tidy.exited exited).2 sound)
      · rw [Function.update_of_ne self,late,if_neg (Ne.symm self),List.append_nil]
        exact ends.tidy t
  · rw [if_neg exited]
    split
    · rename_i freed
      exact absurd (tidy.freed freed) exited
    · refine Ends.note ?_ fun _ => lateFor_posted
      exact ends.setWorker ⟨fun left => absurd left exited,tidy.looking,tidy.freed,tidy.gone⟩ id

theorem Ends.posts (ends : Ends pool) (going : pool.main ≠ .done) (target : Target) (job : Job) : Ends (pool.post target job) := by
  cases target with
  | mainThread =>
    have kept : Ends {pool with context := pool.context ++ [job]} := ⟨ends.tidy,ends.fault,ends.reached⟩
    exact kept.note fun _ => lateFor_posted
  | anyThread => exact ends.postShared going job
  | thread tid =>
    rw [Pool.post]
    split
    · exact ends.postOwn tid job
    · exact ends.postShared going job

/-- A worker that has not left goes on, and may leave when its queue is empty. -/
theorem Ends.moves (ends : Ends pool) (looking : (pool.workers tid).phase ≠ .exited) (freed : worker.freed = (pool.workers tid).freed)
    (gone : worker.gone = (pool.workers tid).gone) (leaves : worker.phase = .exited → worker.running = none ∧ worker.queue = []) :
    Ends (pool.setWorker tid worker) := by
  have tidy := ends.tidy tid
  have kept : (pool.workers tid).freed = false := Bool.eq_false_iff.mpr fun freed => looking (tidy.freed freed)
  refine ends.setWorker ⟨fun left => ⟨(leaves left).1,fun _ => ?_⟩,fun _ => tidy.looking looking,?_,?_⟩ (gone ▸ id)
  · rw [(leaves left).2,tidy.looking looking]
  · rw [freed,kept]
    exact Bool.noConfusion
  · rw [freed,gone]
    exact tidy.gone

theorem Ends.takeOwn (ends : Ends pool) (looking : (pool.workers tid).phase ≠ .exited) (quiet : (pool.workers tid).running = none)
    (next : Phase) : Ends (pool.takeOwn tid next) := by
  rw [Pool.takeOwn]
  split
  · rename_i empty
    exact ends.moves looking rfl rfl fun _ => ⟨quiet,empty⟩
  · rename_i job queue found
    have moved : Ends (pool.setWorker tid {pool.workers tid with queue := queue,running := some job}) :=
      ends.moves looking rfl rfl fun left => absurd left looking
    exact moved.note fun _ => lateFor_ran

theorem Ends.takeShared (ends : Ends pool) (looking : (pool.workers tid).phase ≠ .exited) : Ends (pool.takeShared tid) := by
  rw [Pool.takeShared]
  split
  · exact ends.moves looking rfl rfl (fun left => by cases left)
  · rename_i job shared found
    have going : pool.main ≠ .done := by
      intro done
      have reached := ends.reached
      rw [Reached,done] at reached
      rw [reached.2.1] at found
      cases found
    have moved : Ends ({pool with shared := shared}.setWorker tid {pool.workers tid with running := some job}) :=
      (ends.shared going shared).moves looking rfl rfl fun left => absurd left looking
    exact moved.note fun _ => lateFor_ran

theorem Ends.workerStep (ends : Ends pool) (tid : Nat) : Ends (pool.workerStep tid) := by
  rw [Pool.workerStep]
  split
  · rename_i job running
    have looking : (pool.workers tid).phase ≠ .exited := fun left => by
      rw [((ends.tidy tid).exited left).1] at running
      cases running
    refine ends.moves looking rfl rfl fun left => ?_
    split at left
    · cases left
    · exact absurd left looking
  · rename_i quiet
    split
    · rename_i phase
      refine ends.moves (by rw [phase]; decide) rfl rfl fun left => ?_
      split at left <;> cases left
    · rename_i phase
      exact ends.takeOwn (by rw [phase]; decide) quiet .shared
    · rename_i phase
      exact ends.takeShared (by rw [phase]; decide)
    · rename_i phase
      exact ends.takeOwn (by rw [phase]; decide) quiet .exited
    · exact ends

theorem Ends.mainStep (ends : Ends pool) : Ends pool.mainStep := by
  have reached := ends.reached
  rw [Pool.mainStep]
  split
  · rename_i running
    refine ⟨ends.tidy,ends.fault,?_⟩
    rw [Reached] at reached ⊢
    cases main : pool.main with
    | working => trivial
    | stopping => rfl
    | joining next =>
      rw [main] at reached
      exact ⟨rfl,reached.2⟩
    | draining =>
      rw [main] at reached
      exact reached
    | done =>
      rw [main] at reached
      exact ⟨rfl,reached.2⟩
  · rename_i quiet main
    split
    · exact ends
    · rename_i job context found
      have kept : Ends {pool with context := context,running := some job} := by
        refine ⟨ends.tidy,ends.fault,?_⟩
        rw [Reached]
        simp only [main]
      exact kept.note fun _ => lateFor_ran
  · rename_i tid quiet main
    have tidy := ends.tidy tid
    have stopped : Ends (pool.setWorker tid {pool.workers tid with stop := true}) :=
      ends.setWorker ⟨tidy.exited,tidy.looking,tidy.freed,tidy.gone⟩ id
    split
    · exact ⟨stopped.tidy,stopped.fault,quiet⟩
    · exact ⟨ends.tidy,ends.fault,quiet,fun t below => absurd below (Nat.not_lt_zero t)⟩
  · rename_i tid quiet main
    have tidy := ends.tidy tid
    rw [Reached,main] at reached
    split
    · dsimp only
      split
      · exact ends
      · rename_i left
        rw [not_not] at left
        split
        · exact ends.setWorker ⟨tidy.exited,tidy.looking,fun _ => left,fun _ => rfl⟩ id
        · rename_i freed
          rw [Bool.not_eq_false] at freed
          have away : Ends (pool.setWorker tid {pool.workers tid with gone := true}) :=
            ends.setWorker ⟨tidy.exited,tidy.looking,tidy.freed,fun _ => freed⟩ fun _ => rfl
          refine ⟨away.tidy,away.fault,quiet,fun t below => ?_⟩
          change (Function.update pool.workers tid _ t).gone = true
          by_cases self : t = tid
          · subst self
            rw [Function.update_self]
          · rw [Function.update_of_ne self]
            exact reached.2 t (by omega)
    · rename_i all
      exact ⟨ends.tidy,ends.fault,fun t inside => reached.2 t (Nat.lt_of_lt_of_le inside (Nat.le_of_not_lt all))⟩
  · rename_i quiet main
    rw [Reached,main] at reached
    split
    · rename_i empty
      exact ⟨ends.tidy,ends.fault,quiet,empty,reached⟩
    · rename_i job shared found
      have kept : Ends {pool with shared := shared,running := some job} := by
        refine ⟨ends.tidy,ends.fault,?_⟩
        rw [Reached]
        simp only [main]
        exact reached
      exact kept.note fun _ => lateFor_ran
  · exact ends

theorem Ends.step (ends : Ends pool) (event : Event Job) (may : Enabled pool event) : Ends (pool.step event) := by
  cases event with
  | post thread target job => exact ends.posts (ends.going may) target job
  | destroy => exact ⟨ends.tidy,ends.fault,may.2⟩
  | main => exact ends.mainStep
  | worker tid =>
    rw [Pool.step]
    split
    · exact ends.workerStep tid
    · exact ends

end Ends

/-- What a state of a run promises. At the end of the pool every call has been executed, but for those that were posted to a worker that had
left; only such a call can use a dispatcher behind its release. -/
structure Promises (pool : Pool Job) : Prop where
  fifo : ∀ home, posted home pool.log = taken home pool.log ++ pool.queueOf home
  served : ∀ thread home job, .ran thread home job ∈ pool.log → Serves thread home
  shared : pool.main = .done → posted .shared pool.log = taken .shared pool.log
  own : pool.main = .done → pool.fault = false → ∀ tid < pool.size,
    posted (.own tid) pool.log = taken (.own tid) pool.log ++ lateFor tid pool.log
  quiet : pool.main = .done → pool.running = none ∧ ∀ tid < pool.size, (pool.workers tid).running = none
  sound : (∀ tid, lateFor tid pool.log = []) → pool.fault = false

theorem promises_of {pool : Pool Job} (books : Books pool) (ends : Ends pool) : Promises pool := by
  have ended (done : pool.main = .done) : pool.running = none ∧ pool.shared = [] ∧ ∀ tid < pool.size, (pool.workers tid).phase = .exited := by
    have reached := ends.reached
    rw [Reached,done] at reached
    refine ⟨reached.1,reached.2.1,fun tid inside => ?_⟩
    have tidy := ends.tidy tid
    exact tidy.freed (tidy.gone (reached.2.2 tid inside))
  refine ⟨books.fifo,books.served,?_,?_,?_,?_⟩
  · intro done
    rw [books.fifo,queueOf,(ended done).2.1,List.append_nil]
  · intro done sound tid inside
    rw [books.fifo,queueOf,((ends.tidy tid).exited ((ended done).2.2 tid inside)).2 sound]
  · intro done
    exact ⟨(ended done).1,fun tid inside => ((ends.tidy tid).exited ((ended done).2.2 tid inside)).1⟩
  · intro none'
    by_contra faulty
    obtain ⟨tid,late⟩ := ends.fault (Bool.not_eq_false _ ▸ faulty)
    exact late (none' tid)

theorem ends_create (size : Nat) : Ends (create size : Pool Job) := by
  refine ⟨fun tid => ?_,fun faulty => (by cases faulty),trivial⟩
  exact ⟨fun left => (by cases left),fun _ => rfl,fun freed => (by cases freed),fun gone => (by cases gone)⟩

/-- However the threads take turns, no call of a queue is lost, doubled or passed by a later one. -/
theorem calls_in_order {size : Nat} {events : List (Event Job)} (admissible : Admissible step Enabled (create size) events) :
    Always step Promises (create size) events := by
  have start : Books (create size : Pool Job) ∧ Ends (create size : Pool Job) :=
    ⟨⟨fun home => (by cases home <;> rfl),fun thread home job ran => (by cases ran)⟩,ends_create size⟩
  have keep (pool : Pool Job) (event : Event Job) (sound : Books pool ∧ Ends pool) (may : Enabled pool event) :
      Books (pool.step event) ∧ Ends (pool.step event) := ⟨sound.1.step event,sound.2.step event may⟩
  exact (always_of_step keep start admissible).mono fun _ sound => promises_of sound.1 sound.2

/-- Two workers with a call of their own and one of the pool. The first call posts another one behind itself, and then the main thread destroys
the pool. -/
def twoWorkers : List (Event Nat) :=
  [.post .main (.thread 0) 7,.post .main .anyThread 5,.worker 0,.worker 0,.post (.worker 0) (.thread 0) 9,.worker 0,.worker 1,.worker 1,
    .worker 1,.destroy]

theorem twoWorkers_enabled : Admissible step Enabled (create 2) twoWorkers :=
  ⟨.inl rfl,.inl rfl,trivial,trivial,⟨by decide,by decide⟩,trivial,trivial,trivial,trivial,⟨rfl,rfl⟩,trivial⟩

theorem calls_in_order_two :
    taken (.own 0) (final step (create 2) (twoWorkers ++ (List.replicate 14 [.main,.worker 0,.worker 1]).flatten)).log = [7,9] ∧
      taken .shared (final step (create 2) (twoWorkers ++ (List.replicate 14 [.main,.worker 0,.worker 1]).flatten)).log = [5] := by
  have enabled : Admissible step Enabled (create 2) (twoWorkers ++ (List.replicate 14 [.main,.worker 0,.worker 1]).flatten) :=
    admissible_append.mpr ⟨twoWorkers_enabled,by simp [Admissible,Enabled,List.replicate]⟩
  have promises := (calls_in_order enabled).last
  have own := promises.own (by decide +kernel) (by decide +kernel) 0 (by decide +kernel)
  have shared := promises.shared (by decide +kernel)
  have put : posted (.own 0) (final step (create 2) (twoWorkers ++ (List.replicate 14 [.main,.worker 0,.worker 1]).flatten)).log = [7,9] := by
    decide +kernel
  have late : lateFor 0 (final step (create 2) (twoWorkers ++ (List.replicate 14 [.main,.worker 0,.worker 1]).flatten)).log = [] := by
    decide +kernel
  rw [put,late,List.append_nil] at own
  refine ⟨own.symm,shared.symm.trans ?_⟩
  decide +kernel

end Pool

end XivelyClient.ThreadPool
