import Mathlib.Data.List.Basic
import Mathlib.Logic.Function.Basic
import XivelyClient.Lib.Runs

/-! The pool of threads and its end (`xi_thread_posix_threadpool.c`, `xi_thread_posix_workerthread.c`). A thread goes from one call under the
lock of a dispatcher to the next; in between the others may do what they like. Of a dispatcher the pool uses the queue of calls. -/
namespace XivelyClient.ThreadPool

/-- `target_tid` of a handle -/
inductive Target
  | thread (tid : Nat)
  | anyThread
  | mainThread
  deriving DecidableEq, Repr

inductive Thread
  | main
  | worker (tid : Nat)
  deriving DecidableEq, Repr

/-- A queue of calls: that of the context's dispatcher, of the pool's, or of a worker's. -/
inductive Home
  | context
  | shared
  | own (tid : Nat)
  deriving DecidableEq, Repr

/-- Where `xi_workerthread_start_routine` stands. -/
inductive Phase
  | looks | own | shared | last | exited
  deriving DecidableEq, Repr

/-- `xi_workerthread_t`; `freed` is behind the release of its dispatcher, `gone` behind that of the worker. -/
structure Worker (Job : Type) where
  queue : List Job := []
  stop : Bool := false
  phase : Phase := .looks
  running : Option Job := none
  freed : Bool := false
  gone : Bool := false

/-- The main thread, which works until it calls `xi_threadpool_destroy_instance`. -/
inductive Main
  | working
  | stopping (tid : Nat)
  | joining (tid : Nat)
  | draining
  | done
  deriving DecidableEq, Repr

/-- A handle was put into a queue, put where a worker no longer looks, or taken out to be executed. -/
inductive Happening (Job : Type)
  | posted (home : Home) (job : Job)
  | late (tid : Nat) (job : Job)
  | ran (thread : Thread) (home : Home) (job : Job)
  deriving DecidableEq, Repr

/-- `fault` is a use of a dispatcher that has been released. -/
structure Pool (Job : Type) where
  size : Nat
  context : List Job := []
  shared : List Job := []
  workers : Nat → Worker Job := fun _ => {}
  main : Main := .working
  running : Option Job := none
  fault : Bool := false
  log : List (Happening Job) := []

namespace Pool

variable {Job : Type}

def note (pool : Pool Job) (happening : Happening Job) : Pool Job := {pool with log := pool.log ++ [happening]}

def setWorker (pool : Pool Job) (tid : Nat) (worker : Worker Job) : Pool Job :=
  {pool with workers := Function.update pool.workers tid worker}

section Post

def postShared (pool : Pool Job) (job : Job) : Pool Job := {pool with shared := pool.shared ++ [job]}.note (.posted .shared job)

/-- `xi_evtd_execute` on the dispatcher of a worker -/
def postOwn (pool : Pool Job) (tid : Nat) (job : Job) : Pool Job :=
  let worker := pool.workers tid
  let pool := if worker.phase = .exited then pool.note (.late tid job) else pool
  if worker.freed then {pool with fault := true}
  else (pool.setWorker tid {worker with queue := worker.queue ++ [job]}).note (.posted (.own tid) job)

/-- `xi_evttd_execute`, with `xi_threadpool_execute_on_thread` -/
def post (pool : Pool Job) (target : Target) (job : Job) : Pool Job :=
  match target with
  | .mainThread => {pool with context := pool.context ++ [job]}.note (.posted .context job)
  | .anyThread => pool.postShared job
  | .thread tid => if tid < pool.size ∧ (pool.workers tid).gone = false then pool.postOwn tid job else pool.postShared job

end Post

/-- The single step of the dispatcher that the workers share: from its queue, or past it. -/
def takeShared (pool : Pool Job) (tid : Nat) : Pool Job :=
  let worker := pool.workers tid
  match pool.shared with
  | [] => pool.setWorker tid {worker with phase := .looks}
  | job :: shared => ({pool with shared := shared}.setWorker tid {worker with running := some job}).note (.ran (.worker tid) .shared job)

/-- A single step of its own dispatcher; `next` is where an empty queue leads. -/
def takeOwn (pool : Pool Job) (tid : Nat) (next : Phase) : Pool Job :=
  let worker := pool.workers tid
  match worker.queue with
  | [] => pool.setWorker tid {worker with phase := next}
  | job :: queue => (pool.setWorker tid {worker with queue := queue,running := some job}).note (.ran (.worker tid) (.own tid) job)

/-- `xi_workerthread_start_routine`, from one call to the next. A handle that is running returns. -/
def workerStep (pool : Pool Job) (tid : Nat) : Pool Job :=
  let worker := pool.workers tid
  match worker.running with
  | some _ => pool.setWorker tid {worker with running := none,phase := if worker.phase = .shared then .looks else worker.phase}
  | none =>
    match worker.phase with
    | .looks => pool.setWorker tid {worker with phase := if worker.stop then .last else .own}
    | .own => pool.takeOwn tid .shared
    | .shared => pool.takeShared tid
    | .last => pool.takeOwn tid .exited
    | .exited => pool

/-- `xi_threadpool_destroy_instance` after its call, with `xi_workerthread_destroy_instance`, whose join waits for the worker's exit. Before
that the main thread steps the dispatcher of the context. -/
def mainStep (pool : Pool Job) : Pool Job :=
  match pool.running,pool.main with
  | some _,_ => {pool with running := none}
  | none,.working =>
    match pool.context with
    | [] => pool
    | job :: context => {pool with context := context,running := some job}.note (.ran .main .context job)
  | none,.stopping tid =>
    if tid < pool.size then {pool.setWorker tid {pool.workers tid with stop := true} with main := .stopping (tid + 1)}
    else {pool with main := .joining 0}
  | none,.joining tid =>
    if tid < pool.size then
      let worker := pool.workers tid
      if worker.phase ≠ .exited then pool
      else if worker.freed = false then pool.setWorker tid {worker with freed := true}
      else {pool.setWorker tid {worker with gone := true} with main := .joining (tid + 1)}
    else {pool with main := .draining}
  | none,.draining =>
    match pool.shared with
    | [] => {pool with main := .done}
    | job :: shared => {pool with shared := shared,running := some job}.note (.ran .main .shared job)
  | none,.done => pool

inductive Event (Job : Type)
  | post (thread : Thread) (target : Target) (job : Job)
  | destroy
  | main
  | worker (tid : Nat)

def step (pool : Pool Job) : Event Job → Pool Job
  | .post _ target job => pool.post target job
  | .destroy => {pool with main := .stopping 0}
  | .main => pool.mainStep
  | .worker tid => if tid < pool.size then pool.workerStep tid else pool

/-- Handles post while they run, and the main thread also beside them until it destroys the pool. -/
def Enabled (pool : Pool Job) : Event Job → Prop
  | .post .main _ _ => pool.main = .working ∨ pool.running ≠ none
  | .post (.worker tid) _ _ => tid < pool.size ∧ (pool.workers tid).running ≠ none
  | .destroy => pool.main = .working ∧ pool.running = none
  | .main | .worker _ => True

/-- `xi_threadpool_create_instance` -/
def create (size : Nat) : Pool Job := {size := size}

end Pool

end XivelyClient.ThreadPool
