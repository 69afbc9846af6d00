import Mathlib.Logic.Function.Basic
import SimpleServer.Utils.Bytes

/-!
# The thread pool (`utils/thread_pool.c`, `utils/tqueue.c`)

Any number of threads submit jobs and await them, and the workers take the jobs from a queue.
A step of the pool is one semaphore operation or one operation of the queue, which its own
semaphore protects; between two of them a thread works on data of its own.

A job is known by the number of jobs that were allocated before it. Allocating succeeds, and
the semaphore operations do not fail. The fields behind `fault` record what has happened and
are not in the source.
-/

namespace SimpleServer.Utils

variable {F R α : Type}

/-! ## The queue -/

/-- `TQueue`: the entries, oldest first, and the size that is kept beside them. -/
structure TQueue (α : Type) where
  entries : List α
  size : ℕ
deriving Repr, DecidableEq

def tqueueInit : TQueue α := ⟨[], 0⟩

def tqueueIsEmpty (queue : TQueue α) : Bool := queue.entries.isEmpty

def tqueuePush (queue : TQueue α) (value : α) : TQueue α :=
  ⟨queue.entries ++ [value], queue.size + 1⟩

/-- `none` is undefined: the first entry of an empty queue is used. -/
def tqueuePop (queue : TQueue α) : Option (TQueue α × α) :=
  match queue.entries with
  | [] => none
  | value :: rest => some (⟨rest, queue.size - 1⟩, value)

/-! ## Jobs and threads -/

/-- `JobFunction`, with its argument; `THREAD_SHUTDOWN_JOB` is not a function. -/
inductive JobFunction (F : Type) where
  | shutdown
  | function (f : F)
deriving Repr, DecidableEq

/-- Where the threads are that submit a job and await it. -/
inductive CallerPc where
  /-- Before the push, in `int_pool_submit`. -/
  | push
  /-- Between the push and the post of `jobs_available`. -/
  | post
  /-- The job was submitted. -/
  | submitted
  /-- Behind the wait for the job, in `impl_pool_await`. -/
  | awaited
  /-- The job was awaited and its memory is freed. -/
  | freed
deriving Repr, DecidableEq

/-- `JobId`. A job without a result has `JOB_ERROR_NO_RESULT`. -/
structure JobId (F R : Type) where
  status : ℕ
  jobFunction : JobFunction F
  result : Option R
  caller : CallerPc
deriving Repr, DecidableEq

/-- Where a worker is in `thread_pool_worker_thread_function`. -/
inductive WorkerPc (R : Type) where
  /-- At the wait for `jobs_available`. -/
  | wait
  /-- Before `tqueue_is_empty`. -/
  | look
  /-- Before `tqueue_pop`. -/
  | pop
  /-- The job is executed. -/
  | run (id : ℕ)
  | store (id : ℕ) (returnValue : R)
  /-- Before the post of the job. -/
  | post (id : ℕ)
  /-- Before the post of a shutdown job. -/
  | shutdown (id : ℕ)
  | stopped
deriving Repr, DecidableEq

/-- Where `pool_destroy` is. -/
inductive DestroyPc where
  | idle
  /-- At the start of round `i`. -/
  | submit (i : ℕ)
  /-- In round `i`, which has this job. -/
  | await (i id : ℕ)
  /-- Before the join of worker `i`. -/
  | join (i : ℕ)
  | destroyed
deriving Repr, DecidableEq

inductive PoolFault where
  /-- The exit of a worker that finds the queue empty. -/
  | exit
  | emptyPop
  | useAfterFree
deriving Repr, DecidableEq

structure ThreadPool (F R : Type) where
  workerThreadsAmount : ℕ
  workers : ℕ → WorkerPc R
  jobQueue : TQueue ℕ
  jobsAvailable : ℕ
  /-- The number of jobs allocated so far. -/
  allocated : ℕ
  jobs : ℕ → Option (JobId F R)
  destroyer : DestroyPc
  fault : Option PoolFault
  /-- The jobs in the order of their pushes. -/
  pushed : List ℕ
  /-- The jobs in the order of their pops, with the worker. -/
  taken : List (ℕ × ℕ)
  /-- The executions: the job, the worker and what the function returned. -/
  executed : List (ℕ × ℕ × R)
  /-- What `pool_await` has returned for a job. -/
  returned : List (ℕ × Option R)

/-- `pool_create`, also with the number of workers that `pool_create_dynamic` chooses. -/
def poolCreate (size activeCpuCores : ℕ) : Option (ThreadPool F R) :=
  if size = 0 ∧ activeCpuCores = 0 then none
  else
    some
      { workerThreadsAmount := if size = 0 then activeCpuCores + 1 else size
        workers := fun _ => .wait
        jobQueue := tqueueInit
        jobsAvailable := 0
        allocated := 0
        jobs := fun _ => none
        destroyer := .idle
        fault := none
        pushed := []
        taken := []
        executed := []
        returned := [] }

namespace ThreadPool

def setWorker (pool : ThreadPool F R) (w : ℕ) (pc : WorkerPc R) : ThreadPool F R :=
  { pool with workers := Function.update pool.workers w pc }

def setJob (pool : ThreadPool F R) (id : ℕ) (job : JobId F R) : ThreadPool F R :=
  { pool with jobs := Function.update pool.jobs id (some job) }

def setFault (pool : ThreadPool F R) (fault : PoolFault) : ThreadPool F R :=
  { pool with fault := some fault }

end ThreadPool

/-! ## Submitting and awaiting -/

/-- The start of `int_pool_submit`: the job is allocated. -/
def intPoolSubmit (pool : ThreadPool F R) (startRoutine : JobFunction F) : ThreadPool F R :=
  { pool.setJob pool.allocated ⟨0, startRoutine, none, .push⟩ with
    allocated := pool.allocated + 1 }

/-- `pool_submit` refuses a shutdown job. -/
def poolSubmit (pool : ThreadPool F R) (startRoutine : JobFunction F) : ThreadPool F R :=
  match startRoutine with
  | .shutdown => pool
  | .function f => intPoolSubmit pool (.function f)

/-- The next step of the thread that submits or has awaited the job. -/
def callerStep (pool : ThreadPool F R) (id : ℕ) : ThreadPool F R :=
  match pool.jobs id with
  | none => pool
  | some job =>
    match job.caller with
    | .push =>
      { pool.setJob id { job with caller := .post } with
        jobQueue := tqueuePush pool.jobQueue id
        pushed := pool.pushed ++ [id] }
    | .post =>
      { pool.setJob id { job with caller := .submitted } with
        jobsAvailable := pool.jobsAvailable + 1 }
    | .awaited =>
      { pool.setJob id { job with caller := .freed } with
        returned := pool.returned ++ [(id, job.result)] }
    | .submitted | .freed => pool

/-- The wait of `impl_pool_await`; it blocks while the semaphore of the job is 0. -/
def implPoolAwait (pool : ThreadPool F R) (id : ℕ) : ThreadPool F R :=
  match pool.jobs id with
  | none => pool
  | some job =>
    if job.caller = .submitted ∧ 0 < job.status then
      pool.setJob id { job with status := job.status - 1, caller := .awaited }
    else pool

/-- `pool_await`, which a thread calls with a job of its own. -/
def poolAwait (pool : ThreadPool F R) (id : ℕ) : ThreadPool F R :=
  match pool.jobs id with
  | some ⟨_, .function _, _, _⟩ => implPoolAwait pool id
  | _ => pool

/-! ## The workers -/

/-- Worker `w` changes the job it has and goes on with `pc`. -/
def workOn (pool : ThreadPool F R) (w id : ℕ) (pc : WorkerPc R)
    (change : JobId F R → JobId F R) : ThreadPool F R :=
  match pool.jobs id with
  | none => pool.setFault .useAfterFree
  | some job =>
    if job.caller = .freed then pool.setFault .useAfterFree
    else (pool.setJob id (change job)).setWorker w pc

def postStatus (job : JobId F R) : JobId F R := { job with status := job.status + 1 }

/-- The pop of worker `w`, and the look at the job. -/
def popStep (pool : ThreadPool F R) (w : ℕ) : ThreadPool F R :=
  match tqueuePop pool.jobQueue with
  | none => pool.setFault .emptyPop
  | some (queue, id) =>
    match pool.jobs id with
    | none => pool.setFault .useAfterFree
    | some job =>
      if job.caller = .freed then pool.setFault .useAfterFree
      else
        let pc : WorkerPc R :=
          match job.jobFunction with
          | .shutdown => .shutdown id
          | .function _ => .run id
        { pool.setWorker w pc with
          jobQueue := queue
          taken := pool.taken ++ [(id, w)] }

/-- The next step of worker `w`; `returnValue` is what a function returns that is executed in
this step. -/
def workerStep (pool : ThreadPool F R) (w : ℕ) (returnValue : R) : ThreadPool F R :=
  if w < pool.workerThreadsAmount then
    match pool.workers w with
    | .wait =>
      if 0 < pool.jobsAvailable then
        { pool.setWorker w .look with jobsAvailable := pool.jobsAvailable - 1 }
      else pool
    | .look =>
      if tqueueIsEmpty pool.jobQueue then pool.setFault .exit else pool.setWorker w .pop
    | .pop => popStep pool w
    | .run id =>
      { pool.setWorker w (.store id returnValue) with
        executed := pool.executed ++ [(id, w, returnValue)] }
    | .store id returnValue =>
      workOn pool w id (.post id) fun job => { job with result := some returnValue }
    | .post id => workOn pool w id .wait postStatus
    | .shutdown id => workOn pool w id .stopped postStatus
    | .stopped => pool
  else pool

/-! ## The end of the pool -/

/-- The next step of `pool_destroy`. The job of a round is pushed and posted by `callerStep`. -/
def destroyerStep (pool : ThreadPool F R) : ThreadPool F R :=
  match pool.destroyer with
  | .idle | .destroyed => pool
  | .submit i =>
    if i < pool.workerThreadsAmount then
      { intPoolSubmit pool .shutdown with destroyer := .await i pool.allocated }
    else { pool with destroyer := .join 0 }
  | .await i id =>
    match (pool.jobs id).map JobId.caller with
    | some .freed => { pool with destroyer := .submit (i + 1) }
    | _ => implPoolAwait pool id
  | .join i =>
    if i < pool.workerThreadsAmount then
      match pool.workers i with
      | .stopped => { pool with destroyer := .join (i + 1) }
      | _ => pool
    else { pool with destroyer := .destroyed }

/-- `pool_destroy` is called. -/
def poolDestroy (pool : ThreadPool F R) : ThreadPool F R :=
  match pool.destroyer with
  | .idle => { pool with destroyer := .submit 0 }
  | _ => pool

/-! ## Steps of the pool -/

inductive PoolEvent (F R : Type) where
  /-- A thread calls `pool_submit`. -/
  | submit (startRoutine : JobFunction F)
  | caller (id : ℕ)
  /-- A thread calls `pool_await`, or waits on in it. -/
  | await (id : ℕ)
  | worker (w : ℕ) (returnValue : R)
  | destroy
  | destroyer
deriving Repr, DecidableEq

/-- One step; a thread that is blocked does nothing. -/
def poolStep (pool : ThreadPool F R) (event : PoolEvent F R) : ThreadPool F R :=
  match pool.fault with
  | some _ => pool
  | none =>
    match event with
    | .submit startRoutine => poolSubmit pool startRoutine
    | .caller id => callerStep pool id
    | .await id => poolAwait pool id
    | .worker w returnValue => workerStep pool w returnValue
    | .destroy => poolDestroy pool
    | .destroyer => destroyerStep pool

end SimpleServer.Utils
