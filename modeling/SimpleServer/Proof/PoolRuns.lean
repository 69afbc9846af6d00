import SimpleServer.Proof.JobsOnce

/-!
# Runs of the thread pool

Without new requests the pool comes to rest (`remaining_lt`), and when it rests nothing is left
to do. `pool_destroy` "has to be called AFTER all jobs where awaited", and jobs submitted after
it "DON'T get worked upon"; `AsDocumented` is this use of the pool.

* `Settled`: no thread of the pool, of `pool_submit` or of `pool_destroy` can go on.
* `settled_executed`: then every job was executed.
* `settled_destroyer`: then `pool_destroy` has returned, if it was called.
* `pool_jobs_once`: **in every run** a job is executed once and by one worker, in the order of
  the submissions, `pool_await` returns its result, and `pool_destroy` has stopped every worker.
-/

namespace SimpleServer.Utils

open Lib

variable {F R : Type} {pool pool' : ThreadPool F R} {id w : ℕ} {job : JobId F R} {request : Bool}

/-! ## The pool comes to rest -/

def callerWeight : CallerPc → ℕ
  | .push => 10
  | .post => 9
  | .submitted => 2
  | .awaited => 1
  | .freed => 0

def jobWeight : Option (JobId F R) → ℕ
  | some job => callerWeight job.caller
  | none => 0

def workerWeight : WorkerPc R → ℕ
  | .look => 5
  | .pop => 4
  | .run _ => 3
  | .store _ _ => 2
  | .post _ | .shutdown _ => 1
  | .wait | .stopped => 0

def destroyerWeight (n : ℕ) : DestroyPc → ℕ
  | .submit i => 12 * (n - i) + n + 3
  | .await i _ => 12 * (n - (i + 1)) + n + 4
  | .join i => n - i + 1
  | .idle | .destroyed => 0

/-- A bound on the steps of the calls that are not finished. -/
def remaining (pool : ThreadPool F R) : ℕ :=
  tally jobWeight pool.jobs pool.allocated + 6 * pool.jobsAvailable +
    tally workerWeight pool.workers pool.workerThreadsAmount +
    destroyerWeight pool.workerThreadsAmount pool.destroyer

theorem remaining_setJob (hq : QueueInv pool) (hjob : pool.jobs id = some job)
    (job' : JobId F R) :
    remaining (pool.setJob id job') + callerWeight job.caller =
      remaining pool + callerWeight job'.caller := by
  have htally := tally_update jobWeight pool.jobs (some job') (hq.lt_allocated hjob)
  rw [hjob] at htally
  dsimp only [jobWeight] at htally
  dsimp only [remaining, ThreadPool.setJob]
  omega

theorem remaining_setWorker (hw : w < pool.workerThreadsAmount) (pc : WorkerPc R) :
    remaining (pool.setWorker w pc) + workerWeight (pool.workers w) =
      remaining pool + workerWeight pc := by
  have htally := tally_update workerWeight pool.workers pc hw
  dsimp only [remaining, ThreadPool.setWorker]
  omega

theorem remaining_allocate (pool : ThreadPool F R) (startRoutine : JobFunction F) :
    remaining (intPoolSubmit pool startRoutine) = remaining pool + 10 := by
  have htally := tally_extend jobWeight pool.jobs
    (some (⟨0, startRoutine, none, .push⟩ : JobId F R)) pool.allocated
  have hten : jobWeight (some (⟨0, startRoutine, none, .push⟩ : JobId F R)) = 10 := rfl
  dsimp only [remaining, intPoolSubmit, ThreadPool.setJob]
  omega

theorem workerWeight_afterPop_le (id : ℕ) (job : JobId F R) :
    workerWeight (afterPop id job) ≤ 3 := by
  unfold afterPop
  cases job.jobFunction with
  | shutdown => exact Nat.le_of_ble_eq_true rfl
  | function f => exact le_rfl

/-- The destroyer goes on. -/
theorem remaining_destroyer {pc : DestroyPc} (h : DestroyMove pool pc) :
    remaining { pool with destroyer := pc } < remaining pool := by
  dsimp only [remaining]
  cases h with
  | next h hjob hcaller =>
    rw [h]
    dsimp only [destroyerWeight]
    omega
  | joins h hi =>
    rw [h]
    dsimp only [destroyerWeight]
    omega
  | joined h hi hstopped =>
    rw [h]
    dsimp only [destroyerWeight]
    omega
  | done h hi =>
    rw [h]
    dsimp only [destroyerWeight]
    omega

/-- A worker changes its job and goes on. -/
theorem remaining_workOn {job' : JobId F R} {pc : WorkerPc R} (hq : QueueInv pool)
    (hw : w < pool.workerThreadsAmount) (hjob : pool.jobs id = some job)
    (hcaller : job'.caller = job.caller)
    (hpc : workerWeight pc < workerWeight (pool.workers w)) :
    remaining ((pool.setJob id job').setWorker w pc) < remaining pool := by
  have hjobs := remaining_setJob hq hjob job'
  have hset : remaining ((pool.setJob id job').setWorker w pc) + workerWeight (pool.workers w) =
      remaining (pool.setJob id job') + workerWeight pc :=
    @remaining_setWorker F R (pool.setJob id job') w hw pc
  rw [hcaller] at hjobs
  omega

/-- **Every step that is not a request brings the pool closer to rest.** -/
theorem remaining_lt (h : PoolInv pool) (hmove : Move pool false pool') :
    remaining pool' < remaining pool := by
  cases hmove with
  | round i hd hi =>
    have halloc := remaining_allocate pool .shutdown
    dsimp only [remaining, intPoolSubmit, ThreadPool.setJob] at halloc ⊢
    rw [hd] at halloc ⊢
    dsimp only [destroyerWeight] at halloc ⊢
    omega
  | push id job hjob hcaller =>
    have hset := remaining_setJob h.queue hjob { job with caller := .post }
    rw [hcaller] at hset
    dsimp only [callerWeight] at hset
    dsimp only [remaining, ThreadPool.setJob] at hset ⊢
    omega
  | post id job hjob hcaller =>
    have hset := remaining_setJob h.queue hjob { job with caller := .submitted }
    rw [hcaller] at hset
    dsimp only [callerWeight] at hset
    dsimp only [remaining, ThreadPool.setJob] at hset ⊢
    omega
  | await id job hjob hcaller hstatus =>
    have hset := remaining_setJob h.queue hjob
      { job with status := job.status - 1, caller := .awaited }
    rw [hcaller] at hset
    dsimp only [callerWeight] at hset
    omega
  | free id job hjob hcaller =>
    have hset := remaining_setJob h.queue hjob { job with caller := .freed }
    rw [hcaller] at hset
    dsimp only [callerWeight] at hset
    dsimp only [remaining, ThreadPool.setJob] at hset ⊢
    omega
  | wait w hw hpc havail =>
    have hset := remaining_setWorker hw .look
    rw [hpc] at hset
    dsimp only [workerWeight] at hset
    dsimp only [remaining, ThreadPool.setWorker] at hset ⊢
    omega
  | look w hw hpc =>
    have hset := remaining_setWorker hw .pop
    rw [hpc] at hset
    dsimp only [workerWeight] at hset
    omega
  | pop w id rest job hw hpc hentries hjob =>
    have hset := remaining_setWorker hw (afterPop id job)
    have hle := workerWeight_afterPop_le id job
    have hfour : workerWeight (pool.workers w) = 4 := by
      rw [hpc]
      rfl
    dsimp only [remaining, ThreadPool.setWorker] at hset ⊢
    omega
  | run w id value hw hpc =>
    have hset := remaining_setWorker hw (.store id value)
    rw [hpc] at hset
    dsimp only [workerWeight] at hset
    dsimp only [remaining, ThreadPool.setWorker] at hset ⊢
    omega
  | store w id value job hw hpc hjob =>
    exact remaining_workOn h.queue hw hjob rfl (by rw [hpc]; exact Nat.lt_succ_self 1)
  | finish w id job hw hpc hjob =>
    exact remaining_workOn h.queue hw hjob rfl (by rw [hpc]; exact Nat.one_pos)
  | stop w id job hw hpc hjob =>
    exact remaining_workOn h.queue hw hjob rfl (by rw [hpc]; exact Nat.one_pos)
  | destroyer pc hd => exact remaining_destroyer hd
  | fault fault hf => exact absurd hf (h.place.no_fault h.queue)

/-! ## The documented use -/

/-- `pool_destroy` is called when all jobs were awaited, and nothing is submitted afterwards. -/
def AsDocumented (pool : ThreadPool F R) : PoolEvent F R → Prop
  | .submit _ => pool.destroyer = .idle
  | .destroy => ∀ id job, pool.jobs id = some job → job.caller = .freed
  | _ => True

/-- The shutdown jobs `pool_destroy` has allocated, with `n` workers. -/
def DestroyPc.rounds (n : ℕ) : DestroyPc → ℕ
  | .idle => 0
  | .submit i => i
  | .await i _ => i + 1
  | .join _ | .destroyed => n

/-- The shutdown job that is awaited. -/
def DestroyPc.current : DestroyPc → Option ℕ
  | .await _ id => some id
  | _ => none

def shutdownJob : Option (JobId F R) → ℕ
  | some ⟨_, .shutdown, _, _⟩ => 1
  | _ => 0

structure DocumentedInv (pool : ThreadPool F R) : Prop where
  work : pool.destroyer ≠ .idle → ∀ id job f, pool.jobs id = some job →
    job.jobFunction = .function f → job.caller = .freed
  shutdown : ∀ id job, pool.jobs id = some job → job.jobFunction = .shutdown →
    pool.destroyer.current ≠ some id → job.caller = .freed
  rounds : tally shutdownJob pool.jobs pool.allocated =
    pool.destroyer.rounds pool.workerThreadsAmount
  submit : ∀ i, pool.destroyer = .submit i → i ≤ pool.workerThreadsAmount
  await : ∀ i id, pool.destroyer = .await i id →
    i < pool.workerThreadsAmount ∧ IsShutdown pool id

theorem shutdownJob_eq_one (hjob : pool.jobs id = some job) (h : job.jobFunction = .shutdown) :
    shutdownJob (pool.jobs id) = 1 := by
  obtain ⟨status, jobFunction, result, caller⟩ := job
  dsimp only at h
  rw [hjob, h]
  rfl

theorem isShutdown_of_one (h : shutdownJob (pool.jobs id) = 1) : IsShutdown pool id := by
  cases hjob : pool.jobs id with
  | none =>
    rw [hjob] at h
    cases h
  | some job =>
    obtain ⟨status, jobFunction, result, caller⟩ := job
    cases jobFunction with
    | shutdown => exact ⟨_, hjob, rfl⟩
    | function f =>
      rw [hjob] at h
      cases h

theorem shutdownJob_congr {job' : JobId F R} (h : job'.jobFunction = job.jobFunction) :
    shutdownJob (some job') = shutdownJob (some job) := by
  obtain ⟨status, jobFunction, result, caller⟩ := job
  obtain ⟨status', jobFunction', result', caller'⟩ := job'
  dsimp only at h
  subst h
  cases jobFunction' <;> rfl

theorem tally_shutdown_setJob {job' : JobId F R} (hq : QueueInv pool)
    (hjob : pool.jobs id = some job) (hsame : job'.jobFunction = job.jobFunction) :
    tally shutdownJob (pool.setJob id job').jobs pool.allocated =
      tally shutdownJob pool.jobs pool.allocated := by
  have htally := tally_update shutdownJob pool.jobs (some job') (hq.lt_allocated hjob)
  have hweight := shutdownJob_congr hsame
  rw [hjob] at htally
  dsimp only [ThreadPool.setJob]
  omega

/-- A move that allocates nothing and does not concern the destroyer. -/
theorem DocumentedInv.same (h : DocumentedInv pool) (inv : PoolInv pool)
    (hmove : Move pool request pool') (hold : ∀ j, pool.jobs j = none → pool'.jobs j = none)
    (htally : tally shutdownJob pool'.jobs pool'.allocated =
      tally shutdownJob pool.jobs pool.allocated)
    (hdestroyer : pool'.destroyer = pool.destroyer) : DocumentedInv pool' := by
  -- a job there was keeps its function and, once freed, stays so
  have hjobs : ∀ {j : ℕ} {job' : JobId F R}, pool'.jobs j = some job' →
      ∃ job, pool.jobs j = some job ∧ job'.jobFunction = job.jobFunction ∧
        (job.caller = .freed → job'.caller = .freed) := by
    intro j job' hjob'
    cases hj : pool.jobs j with
    | none =>
      rw [hold j hj] at hjob'
      cases hjob'
    | some job =>
      obtain ⟨job₁, hjob₁, hsame⟩ := hmove.function_kept inv.queue hj
      rw [hjob'] at hjob₁
      cases hjob₁
      refine ⟨job, rfl, hsame, fun hfreed => ?_⟩
      rw [hmove.freed_kept inv.queue inv.place hj hfreed] at hjob'
      cases hjob'
      exact hfreed
  refine ⟨?_, ?_, ?_, ?_, ?_⟩
  · rw [hdestroyer]
    intro hidle j job' f hjob' hf
    obtain ⟨job, hjob, hsame, hfreed⟩ := hjobs hjob'
    exact hfreed (h.work hidle j job f hjob (hsame.symm.trans hf))
  · rw [hdestroyer]
    intro j job' hjob' hshutdown hcurrent
    obtain ⟨job, hjob, hsame, hfreed⟩ := hjobs hjob'
    exact hfreed (h.shutdown j job hjob (hsame.symm.trans hshutdown) hcurrent)
  · rw [htally, hdestroyer, hmove.amount]
    exact h.rounds
  · rw [hdestroyer, hmove.amount]
    exact h.submit
  · rw [hdestroyer, hmove.amount]
    intro i j hi
    obtain ⟨hlt, job, hjob, hshutdown⟩ := h.await i j hi
    exact ⟨hlt, (hmove.isShutdown_iff inv.queue hjob).2 ⟨job, hjob, hshutdown⟩⟩

/-- `pool_destroy` goes on. -/
theorem DocumentedInv.destroyer {pc : DestroyPc} (h : DocumentedInv pool)
    (hd : DestroyMove pool pc) : DocumentedInv { pool with destroyer := pc } := by
  have hidle : pool.destroyer ≠ .idle := by
    intro hidle
    cases hd with
    | next hd hjob hcaller => rw [hidle] at hd; cases hd
    | joins hd hi => rw [hidle] at hd; cases hd
    | joined hd hi hstopped => rw [hidle] at hd; cases hd
    | done hd hi => rw [hidle] at hd; cases hd
  have hrounds := h.rounds
  -- outside of a round all shutdown jobs are freed
  have hfreed : pool.destroyer.current = none → ∀ j job, pool.jobs j = some job →
      job.jobFunction = .shutdown → pc.current ≠ some j → job.caller = .freed := by
    intro hnone j job hjob hshutdown _
    refine h.shutdown j job hjob hshutdown ?_
    rw [hnone]
    rintro ⟨⟩
  cases hd with
  | @next i id job hd hjob hcaller =>
    rw [hd] at hrounds
    refine ⟨fun _ => h.work hidle, ?_, hrounds, ?_, ?_⟩
    · intro j job' hjob' hshutdown _
      by_cases hj : j = id
      · rw [hj, hjob] at hjob'
        cases hjob'
        exact hcaller
      · refine h.shutdown j job' hjob' hshutdown ?_
        rw [hd]
        exact fun heq => hj (Option.some.inj heq).symm
    · rintro _ ⟨⟩
      exact (h.await i id hd).1
    · rintro _ _ ⟨⟩
  | @joins i hd hi =>
    have hle := h.submit i hd
    have hn : i = pool.workerThreadsAmount := by omega
    rw [hd, hn] at hrounds
    refine ⟨fun _ => h.work hidle, hfreed (by rw [hd]; rfl), hrounds, ?_, ?_⟩
    · rintro _ ⟨⟩
    · rintro _ _ ⟨⟩
  | joined hd hi hstopped =>
    rw [hd] at hrounds
    refine ⟨fun _ => h.work hidle, hfreed (by rw [hd]; rfl), hrounds, ?_, ?_⟩
    · rintro _ ⟨⟩
    · rintro _ _ ⟨⟩
  | done hd hi =>
    rw [hd] at hrounds
    refine ⟨fun _ => h.work hidle, hfreed (by rw [hd]; rfl), hrounds, ?_, ?_⟩
    · rintro _ ⟨⟩
    · rintro _ _ ⟨⟩

theorem DocumentedInv.round {i : ℕ} (h : DocumentedInv pool)
    (hd : pool.destroyer = .submit i) (hi : i < pool.workerThreadsAmount) :
    DocumentedInv { intPoolSubmit pool .shutdown with destroyer := .await i pool.allocated } := by
  have hold : ∀ {j : ℕ} {job' : JobId F R}, j ≠ pool.allocated →
      (intPoolSubmit pool .shutdown).jobs j = some job' → pool.jobs j = some job' := by
    intro j job' hj hjob'
    dsimp only [intPoolSubmit, ThreadPool.setJob] at hjob'
    rwa [Function.update_of_ne hj] at hjob'
  have hnew : (intPoolSubmit pool .shutdown).jobs pool.allocated =
      some (⟨0, .shutdown, none, .push⟩ : JobId F R) := Function.update_self ..
  refine ⟨?_, ?_, ?_, ?_, ?_⟩
  · intro _ j job' f hjob' hf
    by_cases hj : j = pool.allocated
    · rw [hj] at hjob'
      have hsome := hnew.symm.trans hjob'
      cases hsome
      cases hf
    · exact h.work (by rw [hd]; rintro ⟨⟩) j job' f (hold hj hjob') hf
  · intro j job' hjob' hshutdown hcurrent
    have hj : j ≠ pool.allocated := fun heq => hcurrent (congrArg some heq.symm)
    exact h.shutdown j job' (hold hj hjob') hshutdown (by rw [hd]; rintro ⟨⟩)
  · have htally := tally_extend shutdownJob pool.jobs
      (some (⟨0, .shutdown, none, .push⟩ : JobId F R)) pool.allocated
    have hrounds := h.rounds
    rw [hd] at hrounds
    dsimp only [DestroyPc.rounds, intPoolSubmit, ThreadPool.setJob] at hrounds ⊢
    rw [htally, hrounds]
    rfl
  · rintro _ ⟨⟩
  · rintro _ _ ⟨⟩
    exact ⟨hi, _, hnew, rfl⟩

theorem setJob_none {j : ℕ} {job' : JobId F R} (hjob : pool.jobs id = some job)
    (hj : pool.jobs j = none) : (pool.setJob id job').jobs j = none := by
  dsimp only [ThreadPool.setJob]
  rw [Function.update_of_ne]
  · exact hj
  · rintro rfl
    rw [hj] at hjob
    cases hjob

theorem DocumentedInv.move (h : DocumentedInv pool) (inv : PoolInv pool)
    (hmove : Move pool false pool') : DocumentedInv pool' := by
  have hsame := fun hold htally hd => h.same inv hmove hold htally hd
  cases hmove with
  | round i hd hi => exact h.round hd hi
  | destroyer pc hd => exact h.destroyer hd
  | push id job hjob hcaller =>
    exact hsame (fun j => setJob_none hjob) (tally_shutdown_setJob inv.queue hjob rfl) rfl
  | post id job hjob hcaller =>
    exact hsame (fun j => setJob_none hjob) (tally_shutdown_setJob inv.queue hjob rfl) rfl
  | await id job hjob hcaller hstatus =>
    exact hsame (fun j => setJob_none hjob) (tally_shutdown_setJob inv.queue hjob rfl) rfl
  | free id job hjob hcaller =>
    exact hsame (fun j => setJob_none hjob) (tally_shutdown_setJob inv.queue hjob rfl) rfl
  | store w id value job hw hpc hjob =>
    exact hsame (fun j => setJob_none hjob) (tally_shutdown_setJob inv.queue hjob rfl) rfl
  | finish w id job hw hpc hjob =>
    exact hsame (fun j => setJob_none hjob) (tally_shutdown_setJob inv.queue hjob rfl) rfl
  | stop w id job hw hpc hjob =>
    exact hsame (fun j => setJob_none hjob) (tally_shutdown_setJob inv.queue hjob rfl) rfl
  | wait w hw hpc havail => exact hsame (fun _ => id) rfl rfl
  | look w hw hpc => exact hsame (fun _ => id) rfl rfl
  | pop w id rest job hw hpc hentries hjob => exact hsame (fun _ hj => hj) rfl rfl
  | run w id value hw hpc => exact hsame (fun _ hj => hj) rfl rfl
  | fault fault hf => exact hsame (fun _ hj => hj) rfl rfl

theorem DocumentedInv.step (h : DocumentedInv pool) (inv : PoolInv pool) {event : PoolEvent F R}
    (hdoc : AsDocumented pool event) : DocumentedInv (poolStep pool event) := by
  have hother : event.isRequest = false → DocumentedInv (poolStep pool event) := by
    intro hrequest
    rcases poolStep_move pool event with heq | hmove
    · rw [heq]
      exact h
    · rw [hrequest] at hmove
      exact h.move inv hmove
  cases event with
  | caller id => exact hother rfl
  | await id => exact hother rfl
  | worker w value => exact hother rfl
  | destroyer => exact hother rfl
  | submit startRoutine =>
    cases startRoutine with
    | shutdown =>
      unfold poolStep
      rw [inv.fault]
      exact h
    | function f =>
      have hidle : pool.destroyer = .idle := hdoc
      unfold poolStep
      rw [inv.fault]
      refine ⟨fun hne => absurd hidle hne, ?_, ?_, h.submit, ?_⟩
      · intro j job' hjob' hshutdown hcurrent
        dsimp only [poolSubmit, intPoolSubmit, ThreadPool.setJob] at hjob' hcurrent
        by_cases hj : j = pool.allocated
        · rw [hj, Function.update_self] at hjob'
          cases hjob'
          cases hshutdown
        · rw [Function.update_of_ne hj] at hjob'
          exact h.shutdown j job' hjob' hshutdown hcurrent
      · have htally := tally_extend shutdownJob pool.jobs
          (some (⟨0, .function f, none, .push⟩ : JobId F R)) pool.allocated
        exact htally.trans h.rounds
      · intro i j hi
        have hnone : pool.destroyer = .await i j := hi
        rw [hidle] at hnone
        cases hnone
  | destroy =>
    have hall : ∀ id job, pool.jobs id = some job → job.caller = .freed := hdoc
    unfold poolStep poolDestroy
    rw [inv.fault]
    dsimp only
    split
    · rename_i hidle
      have hrounds := h.rounds
      rw [hidle] at hrounds
      refine ⟨fun _ j job f hjob _ => hall j job hjob, fun j job hjob _ _ => hall j job hjob,
        hrounds, ?_, ?_⟩
      · rintro _ ⟨⟩
        exact Nat.zero_le _
      · rintro _ _ ⟨⟩
    · exact h

theorem documentedInv_create {size activeCpuCores : ℕ}
    (h : poolCreate size activeCpuCores = some pool) : DocumentedInv pool := by
  unfold poolCreate at h
  by_cases hzero : size = 0 ∧ activeCpuCores = 0
  · rw [if_pos hzero] at h
    cases h
  rw [if_neg hzero] at h
  cases h
  refine ⟨fun hne => absurd rfl hne, ?_, rfl, ?_, ?_⟩
  · rintro _ _ ⟨⟩
  · rintro _ ⟨⟩
  · rintro _ _ ⟨⟩

/-! ## At rest -/

/-- No thread of the pool, of `pool_submit` or of `pool_destroy` can go on. -/
def Settled (pool : ThreadPool F R) : Prop :=
  (∀ id, poolStep pool (.caller id) = pool) ∧ (∀ w value, poolStep pool (.worker w value) = pool) ∧
    poolStep pool .destroyer = pool

theorem setFault_ne (hfault : pool.fault = none) (fault : PoolFault) :
    pool.setFault fault ≠ pool := by
  intro heq
  have hsame := congrArg ThreadPool.fault heq
  rw [hfault] at hsame
  cases hsame

/-- A worker whose state changes makes a step. -/
theorem setWorker_ne {p : ThreadPool F R} (pc : WorkerPc R) (hpc : p.workers w = pc)
    (hne : pool.workers w ≠ pc) : p ≠ pool := by
  rintro rfl
  exact hne hpc

theorem workOn_ne {pc : WorkerPc R} {change : JobId F R → JobId F R} (hfault : pool.fault = none)
    (hne : pool.workers w ≠ pc) : workOn pool w id pc change ≠ pool := by
  unfold workOn
  split
  · exact setFault_ne hfault _
  · split_ifs
    · exact setFault_ne hfault _
    · exact setWorker_ne _ (Function.update_self ..) hne

/-- A worker that can go on is at its end, or waits for a job. -/
theorem Settled.worker [Inhabited R] (h : Settled pool) (inv : PoolInv pool)
    (hw : w < pool.workerThreadsAmount) :
    pool.workers w = .stopped ∨ pool.workers w = .wait ∧ pool.jobsAvailable = 0 := by
  have hstep := h.2.1 w default
  have hfault := inv.fault
  unfold poolStep workerStep at hstep
  rw [hfault] at hstep
  dsimp only at hstep
  rw [if_pos hw] at hstep
  cases hpc : pool.workers w with
  | stopped => exact .inl rfl
  | wait =>
    rw [hpc] at hstep
    dsimp only at hstep
    refine .inr ⟨rfl, ?_⟩
    by_contra hne
    rw [if_pos (Nat.pos_of_ne_zero hne)] at hstep
    exact setWorker_ne .look (Function.update_self ..) (by rw [hpc]; rintro ⟨⟩) hstep
  | look =>
    rw [hpc] at hstep
    dsimp only at hstep
    split_ifs at hstep
    · exact absurd hstep (setFault_ne hfault _)
    · exact absurd hstep (setWorker_ne _ (Function.update_self ..) (by rw [hpc]; rintro ⟨⟩))
  | pop =>
    rw [hpc] at hstep
    dsimp only [popStep] at hstep
    split at hstep
    · exact absurd hstep (setFault_ne hfault _)
    · split at hstep
      · exact absurd hstep (setFault_ne hfault _)
      · split_ifs at hstep
        · exact absurd hstep (setFault_ne hfault _)
        · refine absurd hstep (setWorker_ne _ (Function.update_self ..) ?_)
          rw [hpc]
          split <;> rintro ⟨⟩
  | run id =>
    rw [hpc] at hstep
    exact absurd hstep (setWorker_ne _ (Function.update_self ..) (by rw [hpc]; rintro ⟨⟩))
  | store id value =>
    rw [hpc] at hstep
    exact absurd hstep (workOn_ne hfault (by rw [hpc]; rintro ⟨⟩))
  | post id =>
    rw [hpc] at hstep
    exact absurd hstep (workOn_ne hfault (by rw [hpc]; rintro ⟨⟩))
  | shutdown id =>
    rw [hpc] at hstep
    exact absurd hstep (workOn_ne hfault (by rw [hpc]; rintro ⟨⟩))

/-- The next state of a call that can go on by itself. -/
def CallerPc.next : CallerPc → CallerPc
  | .push => .post
  | .post => .submitted
  | .awaited => .freed
  | .submitted => .submitted
  | .freed => .freed

theorem callerStep_jobs (hjob : pool.jobs id = some job) :
    (callerStep pool id).jobs id = some { job with caller := job.caller.next } := by
  obtain ⟨status, jobFunction, result, caller⟩ := job
  unfold callerStep
  rw [hjob]
  cases caller with
  | push => exact Function.update_self ..
  | post => exact Function.update_self ..
  | awaited => exact Function.update_self ..
  | submitted => exact hjob
  | freed => exact hjob

/-- Every job was submitted, and whoever awaited it has gone on. -/
theorem Settled.caller (h : Settled pool) (inv : PoolInv pool) (hjob : pool.jobs id = some job) :
    job.caller = .submitted ∨ job.caller = .freed := by
  have hstep : callerStep pool id = pool := by
    have hcall := h.1 id
    unfold poolStep at hcall
    rwa [inv.fault] at hcall
  have hjobs := callerStep_jobs hjob
  rw [hstep, hjob] at hjobs
  have hnext : job.caller = job.caller.next := congrArg JobId.caller (Option.some.inj hjobs)
  cases hcaller : job.caller with
  | submitted => exact .inl rfl
  | freed => exact .inr rfl
  | push => rw [hcaller] at hnext; cases hnext
  | post => rw [hcaller] at hnext; cases hnext
  | awaited => rw [hcaller] at hnext; cases hnext

/-- A job that nobody takes has no worker left for it. -/
theorem Settled.stopped [Inhabited R] (h : Settled pool) (inv : PoolInv pool)
    (hentries : pool.jobQueue.entries ≠ []) (hw : w < pool.workerThreadsAmount) :
    pool.workers w = .stopped := by
  have hlooking : tally looking pool.workers pool.workerThreadsAmount = 0 := by
    refine tally_eq_zero fun v hv => ?_
    rcases h.worker inv hv with hpc | ⟨hpc, -⟩
    · rw [hpc]
      rfl
    · rw [hpc]
      rfl
  have hposting : tally posting pool.jobs pool.allocated = 0 := by
    refine tally_eq_zero fun j _ => ?_
    cases hj : pool.jobs j with
    | none => rfl
    | some job =>
      refine if_neg fun hpost => ?_
      rcases h.caller inv hj with hcaller | hcaller
      · rw [hcaller] at hpost
        cases hpost
      · rw [hcaller] at hpost
        cases hpost
  have hcount := inv.queue.count
  have hpos := List.length_pos_iff.2 hentries
  rcases h.worker inv hw with hpc | ⟨-, havail⟩
  · exact hpc
  · omega

/-- The place of a job when the pool is at rest. -/
theorem Settled.place [Inhabited R] (h : Settled pool) (inv : PoolInv pool)
    (hjob : pool.jobs id = some job) :
    (∃ v, (id, v) ∈ pool.taken ∧ Done pool.workers pool.executed id v job ∧
      job.status = if job.caller.early then 1 else 0) ∨
    ((∀ v, (id, v) ∉ pool.taken) ∧ ∀ v < pool.workerThreadsAmount, pool.workers v = .stopped) := by
  cases inv.place.place id job hjob with
  | done v hv hfree hdone hstatus => exact .inl ⟨v, hv, hdone, hstatus⟩
  | held v hv hheld hstatus hearly =>
    -- the worker would go on
    have hholds := hheld.holding
    have hlt : v < pool.workerThreadsAmount := by
      by_contra hge
      rw [inv.place.idle v (not_lt.1 hge)] at hholds
      cases hholds
    rcases h.worker inv hlt with hpc | ⟨hpc, -⟩
    · rw [hpc] at hholds
      cases hholds
    · rw [hpc] at hholds
      cases hholds
  | waiting hfree hstatus hearly =>
    have hpushed : id ∈ pool.pushed := by
      refine (inv.queue.pushed_iff id).2 ⟨job, hjob, ?_⟩
      rcases h.caller inv hjob with hcaller | hcaller
      · rw [hcaller]
        rintro ⟨⟩
      · rw [hcaller]
        rintro ⟨⟩
    rw [inv.queue.order] at hpushed
    rcases List.mem_append.1 hpushed with hmem | hmem
    · obtain ⟨⟨j, v⟩, hv, rfl⟩ := List.mem_map.1 hmem
      exact absurd hv (hfree v)
    · exact .inr ⟨hfree, fun v hv => h.stopped inv (List.ne_nil_of_mem hmem) hv⟩

/-- **At rest every job was executed.** -/
theorem settled_executed [Inhabited R] {f : F} (h : Settled pool) (inv : PoolInv pool)
    (hdoc : DocumentedInv pool) (hjob : pool.jobs id = some job)
    (hf : job.jobFunction = .function f) : ∃ v r, (id, v, r) ∈ pool.executed := by
  have hdone : ∀ {v : ℕ}, Done pool.workers pool.executed id v job →
      ∃ v r, (id, v, r) ∈ pool.executed := by
    rintro v (⟨-, r, -, hr, -⟩ | ⟨hshutdown, -⟩)
    · exact ⟨v, r, hr⟩
    · rw [hf] at hshutdown
      cases hshutdown
  by_cases hidle : pool.destroyer = .idle
  · rcases h.place inv hjob with ⟨v, -, hd, -⟩ | ⟨-, hstopped⟩
    · exact hdone hd
    · -- a worker that has stopped has taken a shutdown job, and there is none
      obtain ⟨j, -, job', hjob', hshutdown⟩ := inv.stop.stopped 0 (hstopped 0 inv.workers)
      have hrounds := hdoc.rounds
      have hle := le_tally shutdownJob pool.jobs (inv.queue.lt_allocated hjob')
      rw [hidle] at hrounds
      rw [shutdownJob_eq_one hjob' hshutdown, hrounds] at hle
      cases hle
  · have hfreed := hdoc.work hidle id job f hjob hf
    obtain ⟨v, -, -, hd, -⟩ := (inv.place.place id job hjob).done_of_status
      (.inr (by rw [hfreed]; rfl))
    exact hdone hd

/-! ### As many shutdown jobs as workers -/

/-- The shutdown jobs. -/
def shutdownJobs (pool : ThreadPool F R) : Finset ℕ :=
  (Finset.range pool.allocated).filter fun j => shutdownJob (pool.jobs j) = 1

theorem card_shutdownJobs (pool : ThreadPool F R) :
    (shutdownJobs pool).card = tally shutdownJob pool.jobs pool.allocated := by
  unfold shutdownJobs tally
  rw [Finset.card_filter]
  refine Finset.sum_congr rfl fun j _ => ?_
  cases pool.jobs j with
  | none => rfl
  | some job =>
    obtain ⟨status, jobFunction, result, caller⟩ := job
    cases jobFunction <;> rfl

theorem mem_shutdownJobs (hq : QueueInv pool) :
    id ∈ shutdownJobs pool ↔ IsShutdown pool id := by
  unfold shutdownJobs
  rw [Finset.mem_filter, Finset.mem_range]
  constructor
  · exact fun h => isShutdown_of_one h.2
  · rintro ⟨job, hjob, hshutdown⟩
    exact ⟨hq.lt_allocated hjob, shutdownJob_eq_one hjob hshutdown⟩

/-- When all workers have stopped and there is one more shutdown job, there are more of them
than workers. -/
theorem PoolInv.more_shutdownJobs (inv : PoolInv pool)
    (hstopped : ∀ v < pool.workerThreadsAmount, pool.workers v = .stopped)
    (hid : IsShutdown pool id) (hfree : ∀ v, (id, v) ∉ pool.taken) :
    pool.workerThreadsAmount < tally shutdownJob pool.jobs pool.allocated := by
  -- every worker has a job of its own
  have htook : ∀ v, ∃ j, v < pool.workerThreadsAmount →
      (j, v) ∈ pool.taken ∧ IsShutdown pool j := by
    intro v
    by_cases hv : v < pool.workerThreadsAmount
    · obtain ⟨j, hj, hshutdown⟩ := inv.stop.stopped v (hstopped v hv)
      exact ⟨j, fun _ => ⟨hj, hshutdown⟩⟩
    · exact ⟨0, fun hlt => absurd hlt hv⟩
  choose took htook using htook
  have hmem : id ∈ shutdownJobs pool := (mem_shutdownJobs inv.queue).2 hid
  have hle : (Finset.range pool.workerThreadsAmount).card ≤
      ((shutdownJobs pool).erase id).card := by
    refine Finset.card_le_card_of_injOn took ?_ ?_
    · intro v hv
      obtain ⟨hj, hshutdown⟩ := htook v (Finset.mem_range.1 hv)
      refine Finset.mem_coe.2 (Finset.mem_erase.2 ⟨?_, (mem_shutdownJobs inv.queue).2 hshutdown⟩)
      intro heq
      exact hfree v (heq ▸ hj)
    · intro v hv u hu heq
      have hv' := (htook v (Finset.mem_range.1 hv)).1
      have hu' := (htook u (Finset.mem_range.1 hu)).1
      rw [← heq] at hu'
      exact inv.queue.taken_unique hu' hv'
  have hcard := Finset.card_erase_lt_of_mem hmem
  rw [Finset.card_range] at hle
  rw [← card_shutdownJobs]
  omega

/-- When there are as many shutdown jobs as workers and all are done, all workers have
stopped. -/
theorem PoolInv.all_stopped (inv : PoolInv pool)
    (hdone : ∀ j job, pool.jobs j = some job → job.jobFunction = .shutdown → job.caller = .freed)
    (hcard : tally shutdownJob pool.jobs pool.allocated = pool.workerThreadsAmount)
    (hw : w < pool.workerThreadsAmount) : pool.workers w = .stopped := by
  classical
  -- every shutdown job has stopped a worker
  have htook : ∀ j, ∃ v, IsShutdown pool j →
      (j, v) ∈ pool.taken ∧ pool.workers v = .stopped := by
    intro j
    by_cases hj : IsShutdown pool j
    · obtain ⟨job, hjob, hshutdown⟩ := hj
      have hfreed := hdone j job hjob hshutdown
      obtain ⟨v, hv, -, hd, -⟩ := (inv.place.place j job hjob).done_of_status
        (.inr (by rw [hfreed]; rfl))
      rcases hd with ⟨f, r, hf, -, -⟩ | ⟨-, hstopped⟩
      · rw [hshutdown] at hf
        cases hf
      · exact ⟨v, fun _ => ⟨hv, hstopped⟩⟩
    · exact ⟨0, fun hshutdown => absurd hshutdown hj⟩
  choose took htook using htook
  let stopped := (Finset.range pool.workerThreadsAmount).filter fun v => pool.workers v = .stopped
  have hle : (shutdownJobs pool).card ≤ stopped.card := by
    refine Finset.card_le_card_of_injOn took ?_ ?_
    · intro j hj
      obtain ⟨-, hstopped⟩ := htook j ((mem_shutdownJobs inv.queue).1 hj)
      refine Finset.mem_coe.2 (Finset.mem_filter.2 ⟨Finset.mem_range.2 ?_, hstopped⟩)
      by_contra hge
      rw [inv.place.idle _ (not_lt.1 hge)] at hstopped
      cases hstopped
    · intro j hj k hk heq
      have hj' := (mem_shutdownJobs inv.queue).1 hj
      have hk' := (mem_shutdownJobs inv.queue).1 hk
      have hkv := (htook k hk').1
      rw [← heq] at hkv
      exact inv.stop.unique _ j k (htook j hj').1 hj' hkv hk'
  have hall : stopped = Finset.range pool.workerThreadsAmount := by
    refine Finset.eq_of_subset_of_card_le (Finset.filter_subset _ _) ?_
    rw [Finset.card_range, ← hcard, ← card_shutdownJobs]
    exact hle
  have hmem : w ∈ stopped := by
    rw [hall]
    exact Finset.mem_range.2 hw
  exact (Finset.mem_filter.1 hmem).2

/-- **At rest `pool_destroy` has returned**, if it was called. -/
theorem settled_destroyer [Inhabited R] (h : Settled pool) (inv : PoolInv pool)
    (hdoc : DocumentedInv pool) : pool.destroyer = .idle ∨ pool.destroyer = .destroyed := by
  have hstep : destroyerStep pool = pool := by
    have hcall := h.2.2
    unfold poolStep at hcall
    rwa [inv.fault] at hcall
  have hsame := congrArg ThreadPool.destroyer hstep
  unfold destroyerStep at hstep hsame
  have hrounds := hdoc.rounds
  cases hd : pool.destroyer with
  | idle => exact .inl rfl
  | destroyed => exact .inr rfl
  | submit i =>
    rw [hd] at hsame
    dsimp only at hsame
    by_cases hi : i < pool.workerThreadsAmount
    · rw [if_pos hi] at hsame
      cases hsame
    · rw [if_neg hi] at hsame
      cases hsame
  | join i =>
    rw [hd] at hsame hrounds
    dsimp only at hsame
    by_cases hi : i < pool.workerThreadsAmount
    · have hall : pool.workers i = .stopped := by
        refine inv.all_stopped ?_ hrounds hi
        intro j job hjob hshutdown
        refine hdoc.shutdown j job hjob hshutdown ?_
        rw [hd]
        rintro ⟨⟩
      rw [if_pos hi, hall] at hsame
      dsimp only at hsame
      have hnext := DestroyPc.join.inj hsame
      omega
    · rw [if_neg hi] at hsame
      cases hsame
  | await i id =>
    exfalso
    obtain ⟨hi, job, hjob, hshutdown⟩ := hdoc.await i id hd
    rw [hd] at hstep hrounds
    dsimp only at hstep
    rw [hjob] at hstep
    rcases h.caller inv hjob with hcaller | hcaller
    · -- the job was submitted and not awaited, so nobody has taken it
      have hstatus : job.status = 0 := by
        by_contra hne
        have hawait : implPoolAwait pool id = pool := by
          rw [Option.map_some, hcaller] at hstep
          exact hstep
        unfold implPoolAwait at hawait
        rw [hjob] at hawait
        dsimp only at hawait
        rw [if_pos ⟨hcaller, Nat.pos_of_ne_zero hne⟩] at hawait
        have hjobs := congrArg (fun p => p.jobs id) hawait
        dsimp only [ThreadPool.setJob] at hjobs
        rw [Function.update_self, hjob] at hjobs
        have hnext := congrArg JobId.caller (Option.some.inj hjobs)
        rw [hcaller] at hnext
        cases hnext
      rcases h.place inv hjob with ⟨v, -, -, hone⟩ | ⟨hfree, hstopped⟩
      · rw [hstatus, hcaller] at hone
        cases hone
      · have hmore := inv.more_shutdownJobs hstopped ⟨job, hjob, hshutdown⟩ hfree
        dsimp only [DestroyPc.rounds] at hrounds
        omega
    · rw [Option.map_some, hcaller] at hstep
      have hnext := congrArg ThreadPool.destroyer hstep
      rw [hd] at hnext
      cases hnext

/-! ## Runs -/

/-- A worker of the pool has taken exactly one shutdown job, and has stopped. -/
def HasStopped (pool : ThreadPool F R) (w : ℕ) : Prop :=
  pool.workers w = .stopped ∧ ∃! id, (id, w) ∈ pool.taken ∧ IsShutdown pool id

/-- What holds in every state of the pool. -/
structure JobsOnce (pool : ThreadPool F R) : Prop where
  /-- A worker that looks at the queue finds a job, and has not exited the process. -/
  neverEmpty : pool.fault = none ∧ ∀ w < pool.workerThreadsAmount,
    pool.workers w = .look ∨ pool.workers w = .pop → tqueueIsEmpty pool.jobQueue = false
  /-- A job is executed at most once; it is one that was submitted, by the worker that took it. -/
  executed : (pool.executed.map Prod.fst).Nodup ∧ ∀ id w r, (id, w, r) ∈ pool.executed →
    (∃ job f, pool.jobs id = some job ∧ job.jobFunction = .function f) ∧ (id, w) ∈ pool.taken
  /-- What `pool_await` has returned is what the job had returned before. -/
  awaited : ∀ id r job f, (id, r) ∈ pool.returned → pool.jobs id = some job →
    job.jobFunction = .function f → ∃ w value, (id, w, value) ∈ pool.executed ∧ r = some value
  /-- The jobs are taken in the order of the submissions. -/
  order : pool.pushed = pool.taken.map Prod.fst ++ pool.jobQueue.entries
  size : pool.jobQueue.size = pool.jobQueue.entries.length
  destroyed : pool.destroyer = .destroyed → ∀ w < pool.workerThreadsAmount, HasStopped pool w

theorem PoolInv.jobsOnce (inv : PoolInv pool) : JobsOnce pool := by
  refine ⟨⟨inv.fault, ?_⟩, ⟨inv.executed.once, ?_⟩, ?_, inv.queue.order, inv.queue.size, ?_⟩
  · intro w hw hpc
    have hne := inv.queue.entry hw hpc
    unfold tqueueIsEmpty
    cases hentries : pool.jobQueue.entries with
    | nil => exact absurd hentries hne
    | cons id rest => rfl
  · intro id w r hmem
    exact ⟨inv.executed.work id w r hmem, inv.executed.taken id w r hmem⟩
  · intro id r job f hmem hjob hf
    obtain ⟨job', hjob', hfreed, hresult⟩ := inv.returned id r hmem
    rw [hjob] at hjob'
    cases hjob'
    obtain ⟨v, -, -, hdone, -⟩ := (inv.place.place id job hjob).done_of_status
      (.inr (by rw [hfreed]; rfl))
    rcases hdone with ⟨f', value, -, hexecuted, hvalue⟩ | ⟨hshutdown, -⟩
    · exact ⟨v, value, hexecuted, hresult.symm.trans hvalue⟩
    · rw [hf] at hshutdown
      cases hshutdown
  · intro hdestroyed w hw
    have hjoined := inv.joined
    unfold JoinedInv at hjoined
    rw [hdestroyed] at hjoined
    have hstopped := hjoined w hw
    obtain ⟨id, hid, hshutdown⟩ := inv.stop.stopped w hstopped
    refine ⟨hstopped, id, ⟨hid, hshutdown⟩, ?_⟩
    rintro id' ⟨hid', hshutdown'⟩
    exact inv.stop.unique w id' id hid' hshutdown' hid hshutdown

theorem documented_run {events : List (PoolEvent F R)} (inv : PoolInv pool)
    (h : DocumentedInv pool) (hdoc : Along poolStep AsDocumented pool events) :
    DocumentedInv (runFrom poolStep pool events) := by
  have hboth : PoolInv (runFrom poolStep pool events) ∧
      DocumentedInv (runFrom poolStep pool events) := by
    refine Along.invariant (I := fun p => PoolInv p ∧ DocumentedInv p) ?_ ⟨inv, h⟩ hdoc
    rintro p event ⟨hinv, hdocumented⟩ hevent
    exact ⟨hinv.step event, hdocumented.step hinv hevent⟩
  exact hboth.2

/-- **Every job is executed once**, in every run of the pool. Whatever the threads do, nothing
goes wrong (`JobsOnce`) and, without new requests, the pool comes to rest. When it is used as
documented and has come to rest, every job that was submitted was executed, by exactly one
worker, and `pool_destroy` has returned if it was called. -/
theorem pool_jobs_once [Inhabited R] {size activeCpuCores : ℕ} {start : ThreadPool F R}
    (hcreate : poolCreate size activeCpuCores = some start) (events : List (PoolEvent F R)) :
    JobsOnce (runFrom poolStep start events) ∧
    (∀ event : PoolEvent F R, event.isRequest = false →
      poolStep (runFrom poolStep start events) event ≠ runFrom poolStep start events →
      remaining (poolStep (runFrom poolStep start events) event) <
        remaining (runFrom poolStep start events)) ∧
    (Along poolStep AsDocumented start events → Settled (runFrom poolStep start events) →
      (∀ id job f, (runFrom poolStep start events).jobs id = some job →
        job.jobFunction = .function f →
        ∃! execution, execution ∈ (runFrom poolStep start events).executed ∧ execution.1 = id) ∧
      ((runFrom poolStep start events).destroyer = .idle ∨
        (runFrom poolStep start events).destroyer = .destroyed)) := by
  have inv := (poolInv_create hcreate).run events
  refine ⟨inv.jobsOnce, ?_, ?_⟩
  · intro event hrequest hne
    rcases poolStep_move (runFrom poolStep start events) event with heq | hmove
    · exact absurd heq hne
    · rw [hrequest] at hmove
      exact remaining_lt inv hmove
  · intro hdocumented hsettled
    have hdoc := documented_run (poolInv_create hcreate) (documentedInv_create hcreate) hdocumented
    refine ⟨?_, settled_destroyer hsettled inv hdoc⟩
    intro id job f hjob hf
    obtain ⟨w, r, hexecuted⟩ := settled_executed hsettled inv hdoc hjob hf
    refine ⟨(id, w, r), ⟨hexecuted, rfl⟩, ?_⟩
    rintro execution ⟨hmem, hid⟩
    exact List.inj_on_of_nodup_map inv.executed.once hmem hexecuted hid

/-- A pool with one worker. -/
def oneWorker : ThreadPool Unit ℕ := (poolCreate 1 0).get rfl

/-- One job is submitted, executed and awaited, and the pool is destroyed. -/
def oneJob : List (PoolEvent Unit ℕ) :=
  ([.submit (.function ()), .caller 0, .caller 0] : List (PoolEvent Unit ℕ)) ++
    List.replicate 6 (PoolEvent.worker 0 7) ++
    ([.await 0, .caller 0, .destroy, .destroyer, .caller 1, .caller 1] :
      List (PoolEvent Unit ℕ)) ++
    List.replicate 4 (PoolEvent.worker 0 7) ++
    ([.destroyer, .caller 1, .destroyer, .destroyer, .destroyer, .destroyer] :
      List (PoolEvent Unit ℕ))

theorem oneJob_settled : Settled (runFrom poolStep oneWorker oneJob) := by
  refine ⟨?_, ?_, rfl⟩
  · intro id
    rcases id with _ | _ | id <;> rfl
  · intro w value
    rcases w with _ | w <;> rfl

theorem oneJob_documented : Along poolStep AsDocumented oneWorker oneJob := by
  refine ⟨rfl, trivial, trivial, trivial, trivial, trivial, trivial, trivial, trivial, trivial,
    trivial, ?_, trivial, trivial, trivial, trivial, trivial, trivial, trivial, trivial, trivial,
    trivial, trivial, trivial, trivial, trivial⟩
  intro id job hjob
  rcases id with _ | id
  · cases hjob
    rfl
  · cases hjob

theorem pool_jobs_once_oneWorker :
    (∃! execution, execution ∈ (runFrom poolStep oneWorker oneJob).executed ∧ execution.1 = 0) ∧
      (runFrom poolStep oneWorker oneJob).returned = [(0, some 7), (1, none)] ∧
      HasStopped (runFrom poolStep oneWorker oneJob) 0 := by
  obtain ⟨honce, -, hrest⟩ := pool_jobs_once (rfl : poolCreate 1 0 = some oneWorker) oneJob
  exact ⟨(hrest oneJob_documented oneJob_settled).1 0 _ () rfl rfl, rfl,
    honce.destroyed rfl 0 (by decide)⟩

end SimpleServer.Utils
