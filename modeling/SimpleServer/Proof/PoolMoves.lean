import SimpleServer.Lib.Run
import SimpleServer.Lib.Tally
import SimpleServer.Utils.ThreadPool

/-!
# The moves of the thread pool and the books of its queue

The queue and its semaphore agree only in sum: an entry is counted by the semaphore, by a
worker that has passed it and has not popped yet, or by a thread that has pushed and has not
posted yet.

* `Move`: everything a step of the pool can do.
* `QueueInv`: the books of the queue.
* `QueueInv.entry`: **a worker that looks finds an entry.**
-/

namespace SimpleServer.Utils

open Lib

variable {F R : Type} {pool pool' : ThreadPool F R} {id w : ℕ} {job : JobId F R}

/-! ## What a step can do -/

/-- The job that a worker works on. -/
def WorkerPc.holding : WorkerPc R → Option ℕ
  | .run id | .store id _ | .post id | .shutdown id => some id
  | .wait | .look | .pop | .stopped => none

/-- What a worker does next with a job it has popped. -/
def afterPop (id : ℕ) (job : JobId F R) : WorkerPc R :=
  match job.jobFunction with
  | .shutdown => .shutdown id
  | .function _ => .run id

/-- A thread calls `pool_submit` or `pool_destroy`; all other events go on with a call. -/
def PoolEvent.isRequest : PoolEvent F R → Bool
  | .submit _ | .destroy => true
  | .caller _ | .await _ | .worker _ _ | .destroyer => false

/-- The steps of `pool_destroy` that change only its own state. -/
inductive DestroyMove (pool : ThreadPool F R) : DestroyPc → Prop
  | next {i id : ℕ} {job : JobId F R} (h : pool.destroyer = .await i id)
    (hjob : pool.jobs id = some job) (hcaller : job.caller = .freed) :
    DestroyMove pool (.submit (i + 1))
  | joins {i : ℕ} (h : pool.destroyer = .submit i) (hi : ¬ i < pool.workerThreadsAmount) :
    DestroyMove pool (.join 0)
  | joined {i : ℕ} (h : pool.destroyer = .join i) (hi : i < pool.workerThreadsAmount)
    (hstopped : pool.workers i = .stopped) : DestroyMove pool (.join (i + 1))
  | done {i : ℕ} (h : pool.destroyer = .join i) (hi : ¬ i < pool.workerThreadsAmount) :
    DestroyMove pool .destroyed

/-- A job that may not be used. -/
def Gone (pool : ThreadPool F R) (id : ℕ) : Prop :=
  ∀ job, pool.jobs id = some job → job.caller = .freed

/-- What goes wrong when a worker looks, pops or uses a job. -/
inductive FaultMove (pool : ThreadPool F R) : Prop
  | empty (w : ℕ) (hw : w < pool.workerThreadsAmount)
    (hpc : pool.workers w = .look ∨ pool.workers w = .pop) (h : pool.jobQueue.entries = [])
  | popped (id : ℕ) (rest : List ℕ) (h : pool.jobQueue.entries = id :: rest) (hgone : Gone pool id)
  | held (w id : ℕ) (hw : w < pool.workerThreadsAmount)
    (hpc : (pool.workers w).holding = some id) (hgone : Gone pool id)

/-- Everything a step of the pool can do, on a request or not. -/
inductive Move (pool : ThreadPool F R) : Bool → ThreadPool F R → Prop
  | submit (f : F) : Move pool true (intPoolSubmit pool (.function f))
  | start (h : pool.destroyer = .idle) : Move pool true { pool with destroyer := .submit 0 }
  | round (i : ℕ) (h : pool.destroyer = .submit i) (hi : i < pool.workerThreadsAmount) :
    Move pool false { intPoolSubmit pool .shutdown with destroyer := .await i pool.allocated }
  | push (id : ℕ) (job : JobId F R) (hjob : pool.jobs id = some job) (h : job.caller = .push) :
    Move pool false
      { pool.setJob id { job with caller := .post } with
        jobQueue := tqueuePush pool.jobQueue id
        pushed := pool.pushed ++ [id] }
  | post (id : ℕ) (job : JobId F R) (hjob : pool.jobs id = some job) (h : job.caller = .post) :
    Move pool false
      { pool.setJob id { job with caller := .submitted } with
        jobsAvailable := pool.jobsAvailable + 1 }
  | await (id : ℕ) (job : JobId F R) (hjob : pool.jobs id = some job)
    (h : job.caller = .submitted) (hstatus : 0 < job.status) :
    Move pool false (pool.setJob id { job with status := job.status - 1, caller := .awaited })
  | free (id : ℕ) (job : JobId F R) (hjob : pool.jobs id = some job) (h : job.caller = .awaited) :
    Move pool false
      { pool.setJob id { job with caller := .freed } with
        returned := pool.returned ++ [(id, job.result)] }
  | wait (w : ℕ) (hw : w < pool.workerThreadsAmount) (hpc : pool.workers w = .wait)
    (h : 0 < pool.jobsAvailable) :
    Move pool false { pool.setWorker w .look with jobsAvailable := pool.jobsAvailable - 1 }
  | look (w : ℕ) (hw : w < pool.workerThreadsAmount) (hpc : pool.workers w = .look) :
    Move pool false (pool.setWorker w .pop)
  | pop (w id : ℕ) (rest : List ℕ) (job : JobId F R) (hw : w < pool.workerThreadsAmount)
    (hpc : pool.workers w = .pop) (h : pool.jobQueue.entries = id :: rest)
    (hjob : pool.jobs id = some job) :
    Move pool false
      { pool.setWorker w (afterPop id job) with
        jobQueue := ⟨rest, pool.jobQueue.size - 1⟩
        taken := pool.taken ++ [(id, w)] }
  | run (w id : ℕ) (value : R) (hw : w < pool.workerThreadsAmount)
    (hpc : pool.workers w = .run id) :
    Move pool false
      { pool.setWorker w (.store id value) with
        executed := pool.executed ++ [(id, w, value)] }
  | store (w id : ℕ) (value : R) (job : JobId F R) (hw : w < pool.workerThreadsAmount)
    (hpc : pool.workers w = .store id value) (hjob : pool.jobs id = some job) :
    Move pool false ((pool.setJob id { job with result := some value }).setWorker w (.post id))
  | finish (w id : ℕ) (job : JobId F R) (hw : w < pool.workerThreadsAmount)
    (hpc : pool.workers w = .post id) (hjob : pool.jobs id = some job) :
    Move pool false ((pool.setJob id (postStatus job)).setWorker w .wait)
  | stop (w id : ℕ) (job : JobId F R) (hw : w < pool.workerThreadsAmount)
    (hpc : pool.workers w = .shutdown id) (hjob : pool.jobs id = some job) :
    Move pool false ((pool.setJob id (postStatus job)).setWorker w .stopped)
  | destroyer (pc : DestroyPc) (h : DestroyMove pool pc) :
    Move pool false { pool with destroyer := pc }
  | fault (fault : PoolFault) (h : FaultMove pool) : Move pool false (pool.setFault fault)

theorem callerStep_move (pool : ThreadPool F R) (id : ℕ) :
    callerStep pool id = pool ∨ Move pool false (callerStep pool id) := by
  unfold callerStep
  split
  · exact .inl rfl
  · rename_i job hjob
    split
    · rename_i hcaller
      exact .inr (.push id job hjob hcaller)
    · rename_i hcaller
      exact .inr (.post id job hjob hcaller)
    · rename_i hcaller
      exact .inr (.free id job hjob hcaller)
    · exact .inl rfl
    · exact .inl rfl

theorem implPoolAwait_move (pool : ThreadPool F R) (id : ℕ) :
    implPoolAwait pool id = pool ∨ Move pool false (implPoolAwait pool id) := by
  unfold implPoolAwait
  split
  · exact .inl rfl
  · rename_i job hjob
    split_ifs with h
    · exact .inr (.await id job hjob h.1 h.2)
    · exact .inl rfl

theorem workOn_move {pc : WorkerPc R} {change : JobId F R → JobId F R}
    (hw : w < pool.workerThreadsAmount) (hpc : (pool.workers w).holding = some id)
    (hmove : ∀ job, pool.jobs id = some job →
      Move pool false ((pool.setJob id (change job)).setWorker w pc)) :
    Move pool false (workOn pool w id pc change) := by
  unfold workOn
  split
  · rename_i hnone
    refine .fault _ (.held w id hw hpc ?_)
    intro job hjob
    rw [hnone] at hjob
    cases hjob
  · rename_i job hjob
    split_ifs with hfreed
    · refine .fault _ (.held w id hw hpc ?_)
      intro job' hjob'
      rw [hjob] at hjob'
      cases hjob'
      exact hfreed
    · exact hmove job hjob

theorem popStep_move (hw : w < pool.workerThreadsAmount) (hpc : pool.workers w = .pop) :
    Move pool false (popStep pool w) := by
  unfold popStep tqueuePop
  cases hentries : pool.jobQueue.entries with
  | nil => exact .fault _ (.empty w hw (.inr hpc) hentries)
  | cons id rest =>
    dsimp only
    split
    · rename_i hnone
      refine .fault _ (.popped id rest hentries ?_)
      intro job hjob
      rw [hnone] at hjob
      cases hjob
    · rename_i job hjob
      split_ifs with hfreed
      · refine .fault _ (.popped id rest hentries ?_)
        intro job' hjob'
        rw [hjob] at hjob'
        cases hjob'
        exact hfreed
      · exact .pop w id rest job hw hpc hentries hjob

theorem workerStep_move (pool : ThreadPool F R) (w : ℕ) (value : R) :
    workerStep pool w value = pool ∨ Move pool false (workerStep pool w value) := by
  unfold workerStep
  by_cases hw : w < pool.workerThreadsAmount
  · rw [if_pos hw]
    split
    · rename_i hpc
      split_ifs with havail
      · exact .inr (.wait w hw hpc havail)
      · exact .inl rfl
    · rename_i hpc
      split_ifs with hempty
      · exact .inr (.fault _ (.empty w hw (.inl hpc) (List.isEmpty_iff.1 hempty)))
      · exact .inr (.look w hw hpc)
    · rename_i hpc
      exact .inr (popStep_move hw hpc)
    · rename_i id hpc
      exact .inr (.run w id value hw hpc)
    · rename_i id value' hpc
      refine .inr (workOn_move hw (by rw [hpc]; rfl) fun job hjob => ?_)
      exact .store w id value' job hw hpc hjob
    · rename_i id hpc
      refine .inr (workOn_move hw (by rw [hpc]; rfl) fun job hjob => ?_)
      exact .finish w id job hw hpc hjob
    · rename_i id hpc
      refine .inr (workOn_move hw (by rw [hpc]; rfl) fun job hjob => ?_)
      exact .stop w id job hw hpc hjob
    · exact .inl rfl
  · rw [if_neg hw]
    exact .inl rfl

theorem destroyerStep_move (pool : ThreadPool F R) :
    destroyerStep pool = pool ∨ Move pool false (destroyerStep pool) := by
  unfold destroyerStep
  split
  · exact .inl rfl
  · exact .inl rfl
  · rename_i i h
    split_ifs with hi
    · exact .inr (.round i h hi)
    · exact .inr (.destroyer _ (.joins h hi))
  · rename_i i id h
    split
    · rename_i hfreed
      obtain ⟨job, hjob, hcaller⟩ := Option.map_eq_some_iff.1 hfreed
      exact .inr (.destroyer _ (.next h hjob hcaller))
    · exact implPoolAwait_move pool id
  · rename_i i h
    split_ifs with hi
    · split
      · rename_i hstopped
        exact .inr (.destroyer _ (.joined h hi hstopped))
      · exact .inl rfl
    · exact .inr (.destroyer _ (.done h hi))

/-- **A step is a move, or nothing.** -/
theorem poolStep_move (pool : ThreadPool F R) (event : PoolEvent F R) :
    poolStep pool event = pool ∨ Move pool event.isRequest (poolStep pool event) := by
  unfold poolStep
  split
  · exact .inl rfl
  · cases event with
    | submit startRoutine =>
      cases startRoutine with
      | shutdown => exact .inl rfl
      | function f => exact .inr (.submit f)
    | caller id => exact callerStep_move pool id
    | await id =>
      dsimp only [poolAwait]
      split
      · exact implPoolAwait_move pool id
      · exact .inl rfl
    | worker w value => exact workerStep_move pool w value
    | destroy =>
      dsimp only [poolDestroy]
      split
      · rename_i h
        exact .inr (.start h)
      · exact .inl rfl
    | destroyer => exact destroyerStep_move pool

/-! ## The books of the queue -/

/-- A worker that has passed `jobs_available` and has not popped yet. -/
def looking : WorkerPc R → ℕ
  | .look | .pop => 1
  | _ => 0

/-- A job that was pushed and for which `jobs_available` was not posted yet. -/
def posting : Option (JobId F R) → ℕ
  | some job => if job.caller = .post then 1 else 0
  | none => 0

structure QueueInv (pool : ThreadPool F R) : Prop where
  fresh : ∀ id, pool.allocated ≤ id → pool.jobs id = none
  size : pool.jobQueue.size = pool.jobQueue.entries.length
  order : pool.pushed = pool.taken.map Prod.fst ++ pool.jobQueue.entries
  nodup : pool.pushed.Nodup
  pushed_iff : ∀ id, id ∈ pool.pushed ↔ ∃ job, pool.jobs id = some job ∧ job.caller ≠ .push
  /-- Every entry is counted once. -/
  count : pool.jobQueue.entries.length = pool.jobsAvailable +
    tally looking pool.workers pool.workerThreadsAmount + tally posting pool.jobs pool.allocated

theorem QueueInv.lt_allocated (h : QueueInv pool) (hjob : pool.jobs id = some job) :
    id < pool.allocated := by
  by_contra hge
  rw [h.fresh id (not_lt.1 hge)] at hjob
  cases hjob

/-- A worker that looks finds an entry. -/
theorem QueueInv.entry (h : QueueInv pool) (hw : w < pool.workerThreadsAmount)
    (hpc : pool.workers w = .look ∨ pool.workers w = .pop) : pool.jobQueue.entries ≠ [] := by
  intro hnil
  have hcount := h.count
  have hle := le_tally looking pool.workers hw
  have hone : looking (pool.workers w) = 1 := by
    rcases hpc with hpc | hpc
    · rw [hpc]
      rfl
    · rw [hpc]
      rfl
  rw [hnil, List.length_nil] at hcount
  omega

/-- A job whose call stays on the same side of the push and of the post. -/
theorem QueueInv.changeJob {job' : JobId F R} (h : QueueInv pool) (hjob : pool.jobs id = some job)
    (hpush : job'.caller = .push ↔ job.caller = .push)
    (hpost : job'.caller = .post ↔ job.caller = .post) : QueueInv (pool.setJob id job') := by
  have hlt := h.lt_allocated hjob
  refine ⟨?_, h.size, h.order, h.nodup, ?_, ?_⟩
  · intro j hj
    have hne : j ≠ id := by
      rintro rfl
      exact absurd hj (not_le.2 hlt)
    dsimp only [ThreadPool.setJob] at hj ⊢
    rw [Function.update_of_ne hne]
    exact h.fresh j hj
  · intro j
    dsimp only [ThreadPool.setJob]
    rw [h.pushed_iff]
    by_cases hj : j = id
    · subst hj
      rw [Function.update_self, hjob]
      constructor
      · rintro ⟨_, hsome, hcaller⟩
        cases hsome
        exact ⟨job', rfl, fun hp => hcaller (hpush.1 hp)⟩
      · rintro ⟨_, hsome, hcaller⟩
        cases hsome
        exact ⟨job, rfl, fun hp => hcaller (hpush.2 hp)⟩
    · rw [Function.update_of_ne hj]
  · have htally := tally_update posting pool.jobs (some job') hlt
    have hsame : posting (some job') = posting (pool.jobs id) := by
      rw [hjob]
      unfold posting
      dsimp only
      by_cases hc : job.caller = .post
      · rw [if_pos hc, if_pos (hpost.2 hc)]
      · rw [if_neg hc, if_neg fun hp => hc (hpost.1 hp)]
    have hcount := h.count
    dsimp only [ThreadPool.setJob]
    omega

/-- A worker that stays on the same side of its pop. -/
theorem QueueInv.changeWorker {pc : WorkerPc R} (h : QueueInv pool)
    (hw : w < pool.workerThreadsAmount) (hpc : looking pc = looking (pool.workers w)) :
    QueueInv (pool.setWorker w pc) := by
  refine ⟨h.fresh, h.size, h.order, h.nodup, h.pushed_iff, ?_⟩
  have htally := tally_update looking pool.workers pc hw
  have hcount := h.count
  dsimp only [ThreadPool.setWorker]
  omega

theorem QueueInv.allocate (h : QueueInv pool) (startRoutine : JobFunction F) :
    QueueInv (intPoolSubmit pool startRoutine) := by
  have hnone := h.fresh pool.allocated le_rfl
  refine ⟨?_, h.size, h.order, h.nodup, ?_, ?_⟩
  · intro j hj
    dsimp only [intPoolSubmit, ThreadPool.setJob] at hj ⊢
    rw [Function.update_of_ne (by omega)]
    exact h.fresh j (by omega)
  · intro j
    dsimp only [intPoolSubmit, ThreadPool.setJob]
    rw [h.pushed_iff]
    by_cases hj : j = pool.allocated
    · -- the new job is not pushed
      subst hj
      rw [Function.update_self, hnone]
      constructor
      · rintro ⟨_, hsome, -⟩
        cases hsome
      · rintro ⟨_, hsome, hcaller⟩
        cases hsome
        exact absurd rfl hcaller
    · rw [Function.update_of_ne hj]
  · have htally := tally_extend posting pool.jobs
      (some (⟨0, startRoutine, none, .push⟩ : JobId F R)) pool.allocated
    have hzero : posting (some (⟨0, startRoutine, none, .push⟩ : JobId F R)) = 0 := rfl
    have hcount := h.count
    dsimp only [intPoolSubmit, ThreadPool.setJob]
    omega

theorem QueueInv.push (h : QueueInv pool) (hjob : pool.jobs id = some job)
    (hcaller : job.caller = .push) :
    QueueInv
      { pool.setJob id { job with caller := .post } with
        jobQueue := tqueuePush pool.jobQueue id
        pushed := pool.pushed ++ [id] } := by
  have hlt := h.lt_allocated hjob
  have hnew : id ∉ pool.pushed := by
    rw [h.pushed_iff]
    rintro ⟨_, hsome, hne⟩
    rw [hjob] at hsome
    cases hsome
    exact hne hcaller
  refine ⟨?_, ?_, ?_, ?_, ?_, ?_⟩
  · intro j hj
    dsimp only [ThreadPool.setJob] at hj ⊢
    rw [Function.update_of_ne (by omega)]
    exact h.fresh j hj
  · dsimp only [tqueuePush]
    rw [List.length_append, h.size]
    rfl
  · dsimp only [tqueuePush]
    rw [h.order, List.append_assoc]
    rfl
  · exact List.Nodup.append h.nodup (List.nodup_singleton _)
      (List.disjoint_singleton.2 hnew)
  · intro j
    dsimp only [ThreadPool.setJob]
    rw [List.mem_append, h.pushed_iff, List.mem_singleton]
    by_cases hj : j = id
    · subst hj
      rw [Function.update_self]
      exact ⟨fun _ => ⟨_, rfl, by rintro ⟨⟩⟩, fun _ => .inr rfl⟩
    · rw [Function.update_of_ne hj]
      exact ⟨fun hor => hor.resolve_right hj, .inl⟩
  · have htally := tally_update posting pool.jobs (some { job with caller := .post }) hlt
    have hone : posting (some { job with caller := CallerPc.post }) = 1 := rfl
    have hzero : posting (pool.jobs id) = 0 := by
      rw [hjob]
      exact if_neg (by rw [hcaller]; decide)
    have hcount := h.count
    dsimp only [ThreadPool.setJob, tqueuePush]
    rw [List.length_append, List.length_singleton]
    omega

theorem QueueInv.post (h : QueueInv pool) (hjob : pool.jobs id = some job)
    (hcaller : job.caller = .post) :
    QueueInv
      { pool.setJob id { job with caller := .submitted } with
        jobsAvailable := pool.jobsAvailable + 1 } := by
  have hlt := h.lt_allocated hjob
  refine ⟨?_, h.size, h.order, h.nodup, ?_, ?_⟩
  · intro j hj
    dsimp only [ThreadPool.setJob] at hj ⊢
    rw [Function.update_of_ne (by omega)]
    exact h.fresh j hj
  · intro j
    dsimp only [ThreadPool.setJob]
    rw [h.pushed_iff]
    by_cases hj : j = id
    · subst hj
      rw [Function.update_self, hjob]
      exact ⟨fun _ => ⟨_, rfl, by rintro ⟨⟩⟩, fun _ => ⟨job, rfl, by rw [hcaller]; decide⟩⟩
    · rw [Function.update_of_ne hj]
  · have htally := tally_update posting pool.jobs (some { job with caller := .submitted }) hlt
    have hone : posting (pool.jobs id) = 1 := by
      rw [hjob]
      exact if_pos hcaller
    have hzero : posting (some { job with caller := CallerPc.submitted }) = 0 := rfl
    have hcount := h.count
    dsimp only [ThreadPool.setJob]
    omega

theorem QueueInv.wait (h : QueueInv pool) (hw : w < pool.workerThreadsAmount)
    (hpc : pool.workers w = .wait) (havail : 0 < pool.jobsAvailable) :
    QueueInv { pool.setWorker w .look with jobsAvailable := pool.jobsAvailable - 1 } := by
  refine ⟨h.fresh, h.size, h.order, h.nodup, h.pushed_iff, ?_⟩
  have htally := tally_update looking pool.workers .look hw
  have hzero : looking (pool.workers w) = 0 := by
    rw [hpc]
    rfl
  have hone : looking (.look : WorkerPc R) = 1 := rfl
  have hcount := h.count
  dsimp only [ThreadPool.setWorker]
  omega

theorem looking_afterPop (id : ℕ) (job : JobId F R) : looking (afterPop id job) = 0 := by
  unfold afterPop
  cases job.jobFunction <;> rfl

theorem QueueInv.pop {rest : List ℕ} (h : QueueInv pool) (hw : w < pool.workerThreadsAmount)
    (hpc : pool.workers w = .pop) (hentries : pool.jobQueue.entries = id :: rest)
    (job : JobId F R) :
    QueueInv
      { pool.setWorker w (afterPop id job) with
        jobQueue := ⟨rest, pool.jobQueue.size - 1⟩
        taken := pool.taken ++ [(id, w)] } := by
  have hsize := h.size
  rw [hentries, List.length_cons] at hsize
  refine ⟨h.fresh, ?_, ?_, h.nodup, h.pushed_iff, ?_⟩
  · dsimp only
    omega
  · have horder := h.order
    rw [hentries] at horder
    dsimp only [ThreadPool.setWorker]
    rw [horder, List.map_append, List.append_assoc]
    rfl
  · have htally := tally_update looking pool.workers (afterPop id job) hw
    have hzero := looking_afterPop id job
    have hone : looking (pool.workers w) = 1 := by
      rw [hpc]
      rfl
    have hcount := h.count
    rw [hentries, List.length_cons] at hcount
    dsimp only [ThreadPool.setWorker]
    omega

/-- **The books of the queue are kept** by every move. -/
theorem QueueInv.move {request : Bool} (h : QueueInv pool) (hmove : Move pool request pool') :
    QueueInv pool' := by
  have hother : ∀ {p : ThreadPool F R}, QueueInv p → ∀ {q : ThreadPool F R},
      q.allocated = p.allocated → q.jobs = p.jobs → q.jobQueue = p.jobQueue →
      q.pushed = p.pushed → q.taken = p.taken → q.jobsAvailable = p.jobsAvailable →
      q.workers = p.workers → q.workerThreadsAmount = p.workerThreadsAmount → QueueInv q := by
    intro p hp q h1 h2 h3 h4 h5 h6 h7 h8
    refine ⟨?_, ?_, ?_, ?_, ?_, ?_⟩
    · rw [h1, h2]
      exact hp.fresh
    · rw [h3]
      exact hp.size
    · rw [h3, h4, h5]
      exact hp.order
    · rw [h4]
      exact hp.nodup
    · rw [h2, h4]
      exact hp.pushed_iff
    · rw [h1, h2, h3, h6, h7, h8]
      exact hp.count
  cases hmove with
  | submit f => exact h.allocate _
  | start hd => exact hother h rfl rfl rfl rfl rfl rfl rfl rfl
  | round i hd hi => exact hother (h.allocate .shutdown) rfl rfl rfl rfl rfl rfl rfl rfl
  | push id job hjob hcaller => exact h.push hjob hcaller
  | post id job hjob hcaller => exact h.post hjob hcaller
  | await id job hjob hcaller hstatus =>
    exact h.changeJob hjob (by simp [hcaller]) (by simp [hcaller])
  | free id job hjob hcaller =>
    have hsame : QueueInv (pool.setJob id { job with caller := .freed }) :=
      h.changeJob hjob (by simp [hcaller]) (by simp [hcaller])
    exact hother hsame rfl rfl rfl rfl rfl rfl rfl rfl
  | wait w hw hpc havail => exact h.wait hw hpc havail
  | look w hw hpc => exact h.changeWorker hw (by rw [hpc]; rfl)
  | pop w id rest job hw hpc hentries hjob => exact h.pop hw hpc hentries job
  | run w id value hw hpc =>
    have hsame : QueueInv (pool.setWorker w (.store id value)) :=
      h.changeWorker hw (by rw [hpc]; rfl)
    exact hother hsame rfl rfl rfl rfl rfl rfl rfl rfl
  | store w id value job hw hpc hjob =>
    have hset : QueueInv (pool.setJob id { job with result := some value }) :=
      h.changeJob hjob Iff.rfl Iff.rfl
    exact hset.changeWorker hw (by dsimp only [ThreadPool.setJob]; rw [hpc]; rfl)
  | finish w id job hw hpc hjob =>
    have hset : QueueInv (pool.setJob id (postStatus job)) := h.changeJob hjob Iff.rfl Iff.rfl
    exact hset.changeWorker hw (by dsimp only [ThreadPool.setJob]; rw [hpc]; rfl)
  | stop w id job hw hpc hjob =>
    have hset : QueueInv (pool.setJob id (postStatus job)) := h.changeJob hjob Iff.rfl Iff.rfl
    exact hset.changeWorker hw (by dsimp only [ThreadPool.setJob]; rw [hpc]; rfl)
  | destroyer pc hd => exact hother h rfl rfl rfl rfl rfl rfl rfl rfl
  | fault fault hf => exact hother h rfl rfl rfl rfl rfl rfl rfl rfl

theorem QueueInv.taken_pushed (h : QueueInv pool) (htaken : (id, w) ∈ pool.taken) :
    id ∈ pool.pushed := by
  rw [h.order]
  exact List.mem_append_left _ (List.mem_map_of_mem htaken)

theorem QueueInv.taken_job (h : QueueInv pool) (htaken : (id, w) ∈ pool.taken) :
    ∃ job, pool.jobs id = some job := by
  obtain ⟨job, hjob, -⟩ := (h.pushed_iff id).1 (h.taken_pushed htaken)
  exact ⟨job, hjob⟩

/-- A job is taken once. -/
theorem QueueInv.taken_unique {v : ℕ} (h : QueueInv pool) (hw : (id, w) ∈ pool.taken)
    (hv : (id, v) ∈ pool.taken) : v = w := by
  have hnodup := h.nodup
  rw [h.order] at hnodup
  have hinj := List.inj_on_of_nodup_map (List.Nodup.of_append_left hnodup)
  exact congrArg Prod.snd (hinj hv hw rfl)

end SimpleServer.Utils
