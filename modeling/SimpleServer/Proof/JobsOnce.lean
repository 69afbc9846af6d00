import SimpleServer.Proof.PoolMoves

/-!
# Every job has one place

A job goes from the queue to one worker and is done when that worker has posted it (`Place`).

* `PlaceInv.move`: every move keeps each job at its place.
* `ExecutedInv.move`, `StopInv.move`: a job is executed once, and a worker takes one shutdown job.
* `PoolInv.step`: **what every step of the pool preserves.**
-/

namespace SimpleServer.Utils

open Lib

variable {F R : Type} {pool pool' : ThreadPool F R} {id w : ℕ} {job : JobId F R} {request : Bool}

/-! ## Where a job is -/

/-- The call that submits the job has not come to the end of the wait for it. -/
def CallerPc.early : CallerPc → Bool
  | .push | .post | .submitted => true
  | .awaited | .freed => false

/-- What is known of a job that worker `w` works on. -/
def Held (executed : List (ℕ × ℕ × R)) (id w : ℕ) (job : JobId F R) : WorkerPc R → Prop
  | .run j => j = id ∧ (∃ f, job.jobFunction = .function f) ∧ ∀ v r, (id, v, r) ∉ executed
  | .store j r => j = id ∧ (∃ f, job.jobFunction = .function f) ∧ (id, w, r) ∈ executed
  | .post j => j = id ∧ (∃ f, job.jobFunction = .function f) ∧
      ∃ r, (id, w, r) ∈ executed ∧ job.result = some r
  | .shutdown j => j = id ∧ job.jobFunction = .shutdown
  | .wait | .look | .pop | .stopped => False

/-- What worker `w` leaves behind of a job. -/
def Done (workers : ℕ → WorkerPc R) (executed : List (ℕ × ℕ × R)) (id w : ℕ)
    (job : JobId F R) : Prop :=
  (∃ f r, job.jobFunction = .function f ∧ (id, w, r) ∈ executed ∧ job.result = some r) ∨
    (job.jobFunction = .shutdown ∧ workers w = .stopped)

/-- Where a job is: not taken yet, with a worker, or done. -/
inductive Place (workers : ℕ → WorkerPc R) (taken : List (ℕ × ℕ)) (executed : List (ℕ × ℕ × R))
    (id : ℕ) (job : JobId F R) : Prop
  | waiting (htaken : ∀ w, (id, w) ∉ taken) (hstatus : job.status = 0)
    (hearly : job.caller.early = true)
  | held (w : ℕ) (htaken : (id, w) ∈ taken) (hheld : Held executed id w job (workers w))
    (hstatus : job.status = 0) (hearly : job.caller.early = true)
  | done (w : ℕ) (htaken : (id, w) ∈ taken) (hfree : ∀ v, (workers v).holding ≠ some id)
    (hdone : Done workers executed id w job)
    (hstatus : job.status = if job.caller.early then 1 else 0)

theorem Held.holding {executed : List (ℕ × ℕ × R)} {pc : WorkerPc R}
    (h : Held executed id w job pc) : pc.holding = some id := by
  cases pc with
  | run j => exact congrArg some h.1
  | store j r => exact congrArg some h.1
  | post j => exact congrArg some h.1
  | shutdown j => exact congrArg some h.1
  | wait => exact False.elim h
  | look => exact False.elim h
  | pop => exact False.elim h
  | stopped => exact False.elim h

structure PlaceInv (pool : ThreadPool F R) : Prop where
  place : ∀ id job, pool.jobs id = some job →
    Place pool.workers pool.taken pool.executed id job
  holding : ∀ w id, (pool.workers w).holding = some id → (id, w) ∈ pool.taken
  idle : ∀ w, pool.workerThreadsAmount ≤ w → pool.workers w = .wait

section Place

variable {workers : ℕ → WorkerPc R} {taken taken' : List (ℕ × ℕ)}
  {executed executed' : List (ℕ × ℕ × R)} {pc : WorkerPc R}

/-- A job that a worker neither had nor gets stays where it is. -/
theorem Place.frame (h : Place workers taken executed id job)
    (htaken : ∀ v, (id, v) ∈ taken' ↔ (id, v) ∈ taken)
    (hexecuted : ∀ v r, (id, v, r) ∈ executed' ↔ (id, v, r) ∈ executed)
    (hold : (workers w).holding ≠ some id) (hnew : pc.holding ≠ some id)
    (hstop : workers w ≠ .stopped) :
    Place (Function.update workers w pc) taken' executed' id job := by
  cases h with
  | waiting hfree hstatus hearly =>
    exact .waiting (fun v hv => hfree v ((htaken v).1 hv)) hstatus hearly
  | held v hv hheld hstatus hearly =>
    have hne : v ≠ w := by
      rintro rfl
      exact hold hheld.holding
    refine .held v ((htaken v).2 hv) ?_ hstatus hearly
    rw [Function.update_of_ne hne]
    cases hpc : workers v with
    | run j =>
      rw [hpc] at hheld
      exact ⟨hheld.1, hheld.2.1, fun u r hu => hheld.2.2 u r ((hexecuted u r).1 hu)⟩
    | store j r =>
      rw [hpc] at hheld
      exact ⟨hheld.1, hheld.2.1, (hexecuted v r).2 hheld.2.2⟩
    | post j =>
      rw [hpc] at hheld
      obtain ⟨r, hr, hresult⟩ := hheld.2.2
      exact ⟨hheld.1, hheld.2.1, r, (hexecuted v r).2 hr, hresult⟩
    | shutdown j =>
      rw [hpc] at hheld
      exact hheld
    | wait => rw [hpc] at hheld; exact hheld
    | look => rw [hpc] at hheld; exact hheld
    | pop => rw [hpc] at hheld; exact hheld
    | stopped => rw [hpc] at hheld; exact hheld
  | done v hv hfree hdone hstatus =>
    refine .done v ((htaken v).2 hv) ?_ ?_ hstatus
    · intro u
      by_cases hu : u = w
      · rw [hu, Function.update_self]
        exact hnew
      · rw [Function.update_of_ne hu]
        exact hfree u
    · rcases hdone with ⟨f, r, hf, hr, hresult⟩ | ⟨hshutdown, hstopped⟩
      · exact .inl ⟨f, r, hf, (hexecuted v r).2 hr, hresult⟩
      · refine .inr ⟨hshutdown, ?_⟩
        rw [Function.update_of_ne]
        · exact hstopped
        · rintro rfl
          exact hstop hstopped

/-- A job whose call has not come to the end of its wait, and goes on with the call. -/
theorem Place.submitting {caller : CallerPc} (h : Place workers taken executed id job)
    (hold : job.caller.early = true) (hnew : caller.early = true) :
    Place workers taken executed id { job with caller := caller } := by
  cases h with
  | waiting hfree hstatus hearly => exact .waiting hfree hstatus hnew
  | held v hv hheld hstatus hearly =>
    refine .held v hv ?_ hstatus hnew
    cases hpc : workers v with
    | run j => rw [hpc] at hheld; exact hheld
    | store j r => rw [hpc] at hheld; exact hheld
    | post j => rw [hpc] at hheld; exact hheld
    | shutdown j => rw [hpc] at hheld; exact hheld
    | wait => rw [hpc] at hheld; exact hheld
    | look => rw [hpc] at hheld; exact hheld
    | pop => rw [hpc] at hheld; exact hheld
    | stopped => rw [hpc] at hheld; exact hheld
  | done v hv hfree hdone hstatus =>
    refine .done v hv hfree hdone ?_
    dsimp only
    rw [hstatus, hold, hnew]

/-- A job that is posted is done. -/
theorem Place.done_of_status (h : Place workers taken executed id job)
    (hposted : 0 < job.status ∨ job.caller.early = false) :
    ∃ v, (id, v) ∈ taken ∧ (∀ u, (workers u).holding ≠ some id) ∧
      Done workers executed id v job ∧
      job.status = if job.caller.early then 1 else 0 := by
  cases h with
  | waiting hfree hstatus hearly =>
    rw [hstatus, hearly] at hposted
    rcases hposted with hposted | hposted
    · exact absurd hposted (lt_irrefl 0)
    · cases hposted
  | held v hv hheld hstatus hearly =>
    rw [hstatus, hearly] at hposted
    rcases hposted with hposted | hposted
    · exact absurd hposted (lt_irrefl 0)
    · cases hposted
  | done v hv hfree hdone hstatus => exact ⟨v, hv, hfree, hdone, hstatus⟩

end Place

/-- The job that worker `w` works on is at that place. -/
theorem PlaceInv.held (h : PlaceInv pool) (hq : QueueInv pool)
    (hholds : (pool.workers w).holding = some id) (hjob : pool.jobs id = some job) :
    (id, w) ∈ pool.taken ∧ Held pool.executed id w job (pool.workers w) ∧ job.status = 0 ∧
      job.caller.early = true := by
  have htaken := h.holding w id hholds
  cases h.place id job hjob with
  | waiting hfree hstatus hearly => exact absurd htaken (hfree w)
  | held v hv hheld hstatus hearly =>
    obtain rfl := hq.taken_unique htaken hv
    exact ⟨htaken, hheld, hstatus, hearly⟩
  | done v hv hfree hdone hstatus => exact absurd hholds (hfree w)

/-- A worker that holds no job goes on without one. -/
theorem PlaceInv.changeWorker {pc : WorkerPc R} (h : PlaceInv pool)
    (hw : w < pool.workerThreadsAmount) (hold : (pool.workers w).holding = none)
    (hnew : pc.holding = none) (hstop : pool.workers w ≠ .stopped) :
    PlaceInv (pool.setWorker w pc) := by
  refine ⟨?_, ?_, ?_⟩
  · intro id job hjob
    refine (h.place id job hjob).frame (fun _ => Iff.rfl) (fun _ _ => Iff.rfl) ?_ ?_ hstop
    · rw [hold]
      rintro ⟨⟩
    · rw [hnew]
      rintro ⟨⟩
  · intro v id hholds
    dsimp only [ThreadPool.setWorker] at hholds ⊢
    by_cases hv : v = w
    · rw [hv, Function.update_self, hnew] at hholds
      cases hholds
    · rw [Function.update_of_ne hv] at hholds
      exact h.holding v id hholds
  · intro v hv
    dsimp only [ThreadPool.setWorker] at hv ⊢
    rw [Function.update_of_ne (by omega)]
    exact h.idle v hv

/-- A job changes and its new place is known. -/
theorem PlaceInv.changeJob {job' : JobId F R} (h : PlaceInv pool)
    (hplace : Place pool.workers pool.taken pool.executed id job') :
    PlaceInv (pool.setJob id job') := by
  refine ⟨?_, h.holding, h.idle⟩
  intro j job hjob
  dsimp only [ThreadPool.setJob] at hjob ⊢
  by_cases hj : j = id
  · rw [hj, Function.update_self] at hjob
    cases hjob
    rw [hj]
    exact hplace
  · rw [Function.update_of_ne hj] at hjob
    exact h.place j job hjob

theorem PlaceInv.allocate (h : PlaceInv pool) (hq : QueueInv pool)
    (startRoutine : JobFunction F) : PlaceInv (intPoolSubmit pool startRoutine) := by
  have hset : PlaceInv (pool.setJob pool.allocated ⟨0, startRoutine, none, .push⟩) := by
    refine h.changeJob (.waiting ?_ rfl rfl)
    intro v hv
    obtain ⟨job, hjob⟩ := hq.taken_job hv
    rw [hq.fresh _ le_rfl] at hjob
    cases hjob
  exact ⟨hset.place, hset.holding, hset.idle⟩

/-- Worker `w` changes the job it works on and goes on with `pc`. -/
theorem PlaceInv.workOn {pc : WorkerPc R} {job' : JobId F R} (h : PlaceInv pool)
    (hw : w < pool.workerThreadsAmount) (hholds : (pool.workers w).holding = some id)
    (hpc : pc.holding = none ∨ pc.holding = some id)
    (hplace : Place (Function.update pool.workers w pc) pool.taken pool.executed id job') :
    PlaceInv ((pool.setJob id job').setWorker w pc) := by
  refine ⟨?_, ?_, ?_⟩
  · intro j job hjob
    dsimp only [ThreadPool.setJob, ThreadPool.setWorker] at hjob ⊢
    by_cases hj : j = id
    · rw [hj, Function.update_self] at hjob
      cases hjob
      rw [hj]
      exact hplace
    · rw [Function.update_of_ne hj] at hjob
      refine (h.place j job hjob).frame (fun _ => Iff.rfl) (fun _ _ => Iff.rfl) ?_ ?_ ?_
      · rw [hholds]
        exact fun heq => hj (Option.some.inj heq).symm
      · rcases hpc with hpc | hpc
        · rw [hpc]
          rintro ⟨⟩
        · rw [hpc]
          exact fun heq => hj (Option.some.inj heq).symm
      · intro hstop
        rw [hstop] at hholds
        cases hholds
  · intro v j hv
    dsimp only [ThreadPool.setJob, ThreadPool.setWorker] at hv ⊢
    by_cases hvw : v = w
    · rw [hvw, Function.update_self] at hv
      rcases hpc with hpc | hpc
      · rw [hpc] at hv
        cases hv
      · rw [hpc] at hv
        cases hv
        rw [hvw]
        exact h.holding w id hholds
    · rw [Function.update_of_ne hvw] at hv
      exact h.holding v j hv
  · intro v hv
    dsimp only [ThreadPool.setJob, ThreadPool.setWorker] at hv ⊢
    rw [Function.update_of_ne (by omega)]
    exact h.idle v hv

/-! ## Executions -/

structure ExecutedInv (pool : ThreadPool F R) : Prop where
  taken : ∀ id v r, (id, v, r) ∈ pool.executed → (id, v) ∈ pool.taken
  work : ∀ id v r, (id, v, r) ∈ pool.executed →
    ∃ job f, pool.jobs id = some job ∧ job.jobFunction = .function f
  once : (pool.executed.map Prod.fst).Nodup

theorem PlaceInv.pop {rest : List ℕ} (h : PlaceInv pool) (hq : QueueInv pool)
    (he : ExecutedInv pool) (hw : w < pool.workerThreadsAmount) (hpc : pool.workers w = .pop)
    (hentries : pool.jobQueue.entries = id :: rest) (hjob : pool.jobs id = some job) :
    PlaceInv
      { pool.setWorker w (afterPop id job) with
        jobQueue := ⟨rest, pool.jobQueue.size - 1⟩
        taken := pool.taken ++ [(id, w)] } := by
  have hnew : ∀ v, (id, v) ∉ pool.taken := by
    intro v hv
    have hnodup := hq.nodup
    rw [hq.order, hentries] at hnodup
    exact List.disjoint_of_nodup_append hnodup (List.mem_map_of_mem hv) List.mem_cons_self
  have hholding : (afterPop id job).holding = some id := by
    unfold afterPop
    cases job.jobFunction <;> rfl
  refine ⟨?_, ?_, ?_⟩
  · intro j job' hjob'
    dsimp only [ThreadPool.setWorker] at hjob' ⊢
    by_cases hj : j = id
    · rw [hj] at hjob' ⊢
      rw [hjob] at hjob'
      cases hjob'
      have hplace := h.place id job hjob
      have hwaits : job.status = 0 ∧ job.caller.early = true := by
        cases hplace with
        | waiting hfree hstatus hearly => exact ⟨hstatus, hearly⟩
        | held v hv hheld hstatus hearly => exact absurd hv (hnew v)
        | done v hv hfree hdone hstatus => exact absurd hv (hnew v)
      refine .held w (List.mem_append_right _ List.mem_cons_self) ?_ hwaits.1 hwaits.2
      rw [Function.update_self]
      unfold afterPop
      cases hfunction : job.jobFunction with
      | shutdown => exact ⟨rfl, hfunction⟩
      | function f => exact ⟨rfl, ⟨f, hfunction⟩, fun v r hv => hnew v (he.taken id v r hv)⟩
    · refine (h.place j job' hjob').frame ?_ (fun _ _ => Iff.rfl) ?_ ?_ ?_
      · intro v
        rw [List.mem_append, List.mem_singleton]
        exact ⟨fun hor => hor.resolve_right fun heq => hj (congrArg Prod.fst heq), .inl⟩
      · rw [hpc]
        rintro ⟨⟩
      · rw [hholding]
        exact fun heq => hj (Option.some.inj heq).symm
      · rw [hpc]
        rintro ⟨⟩
  · intro v j hv
    dsimp only [ThreadPool.setWorker] at hv ⊢
    by_cases hvw : v = w
    · rw [hvw, Function.update_self, hholding] at hv
      cases hv
      rw [hvw]
      exact List.mem_append_right _ List.mem_cons_self
    · rw [Function.update_of_ne hvw] at hv
      exact List.mem_append_left _ (h.holding v j hv)
  · intro v hv
    dsimp only [ThreadPool.setWorker] at hv ⊢
    rw [Function.update_of_ne (by omega)]
    exact h.idle v hv

theorem PlaceInv.run (h : PlaceInv pool) (hq : QueueInv pool) (value : R)
    (hw : w < pool.workerThreadsAmount) (hpc : pool.workers w = .run id) :
    PlaceInv
      { pool.setWorker w (.store id value) with
        executed := pool.executed ++ [(id, w, value)] } := by
  have hholds : (pool.workers w).holding = some id := by rw [hpc]; rfl
  refine ⟨?_, ?_, ?_⟩
  · intro j job' hjob'
    dsimp only [ThreadPool.setWorker] at hjob' ⊢
    by_cases hj : j = id
    · rw [hj] at hjob' ⊢
      obtain ⟨htaken, hheld, hstatus, hearly⟩ := h.held hq hholds hjob'
      rw [hpc] at hheld
      refine .held w htaken ?_ hstatus hearly
      rw [Function.update_self]
      exact ⟨rfl, hheld.2.1, List.mem_append_right _ List.mem_cons_self⟩
    · refine (h.place j job' hjob').frame (fun _ => Iff.rfl) ?_ ?_ ?_ ?_
      · intro v r
        rw [List.mem_append, List.mem_singleton]
        exact ⟨fun hor => hor.resolve_right fun heq => hj (congrArg Prod.fst heq), .inl⟩
      · rw [hholds]
        exact fun heq => hj (Option.some.inj heq).symm
      · exact fun heq => hj (Option.some.inj heq).symm
      · rw [hpc]
        rintro ⟨⟩
  · intro v j hv
    dsimp only [ThreadPool.setWorker] at hv ⊢
    by_cases hvw : v = w
    · rw [hvw, Function.update_self] at hv
      cases hv
      rw [hvw]
      exact h.holding w id hholds
    · rw [Function.update_of_ne hvw] at hv
      exact h.holding v j hv
  · intro v hv
    dsimp only [ThreadPool.setWorker] at hv ⊢
    rw [Function.update_of_ne (by omega)]
    exact h.idle v hv

/-- The place of a job that worker `w` has finished. -/
theorem PlaceInv.finished {pc : WorkerPc R} (h : PlaceInv pool) (hq : QueueInv pool)
    (hholds : (pool.workers w).holding = some id) (hjob : pool.jobs id = some job)
    (hnew : pc.holding = none)
    (hdone : Done (Function.update pool.workers w pc) pool.executed id w (postStatus job)) :
    Place (Function.update pool.workers w pc) pool.taken pool.executed id (postStatus job) := by
  obtain ⟨htaken, -, hstatus, hearly⟩ := h.held hq hholds hjob
  refine .done w htaken ?_ hdone ?_
  · intro v
    by_cases hv : v = w
    · rw [hv, Function.update_self, hnew]
      rintro ⟨⟩
    · rw [Function.update_of_ne hv]
      exact fun hother => hv (hq.taken_unique htaken (h.holding v id hother))
  · have hsame : (postStatus job).caller.early = true := hearly
    rw [if_pos hsame]
    exact congrArg (· + 1) hstatus

/-- **Every move keeps each job at its place.** -/
theorem PlaceInv.move (h : PlaceInv pool) (hq : QueueInv pool) (he : ExecutedInv pool)
    (hmove : Move pool request pool') : PlaceInv pool' := by
  cases hmove with
  | submit f => exact h.allocate hq _
  | start hd => exact ⟨h.place, h.holding, h.idle⟩
  | round i hd hi =>
    have halloc := h.allocate hq .shutdown
    exact ⟨halloc.place, halloc.holding, halloc.idle⟩
  | push id job hjob hcaller =>
    have hset : PlaceInv (pool.setJob id { job with caller := .post }) :=
      h.changeJob ((h.place id job hjob).submitting (by rw [hcaller]; rfl) rfl)
    exact ⟨hset.place, hset.holding, hset.idle⟩
  | post id job hjob hcaller =>
    have hset : PlaceInv (pool.setJob id { job with caller := .submitted }) :=
      h.changeJob ((h.place id job hjob).submitting (by rw [hcaller]; rfl) rfl)
    exact ⟨hset.place, hset.holding, hset.idle⟩
  | await id job hjob hcaller hstatus =>
    -- only a job that is done has a status to wait for
    obtain ⟨v, hv, hfree, hdone, hone⟩ := (h.place id job hjob).done_of_status (.inl hstatus)
    refine h.changeJob (.done v hv hfree hdone ?_)
    dsimp only
    rw [hone, hcaller]
    rfl
  | free id job hjob hcaller =>
    obtain ⟨v, hv, hfree, hdone, hone⟩ :=
      (h.place id job hjob).done_of_status (.inr (by rw [hcaller]; rfl))
    have hset : PlaceInv (pool.setJob id { job with caller := .freed }) := by
      refine h.changeJob (.done v hv hfree hdone ?_)
      dsimp only
      rw [hone, hcaller]
      rfl
    exact ⟨hset.place, hset.holding, hset.idle⟩
  | wait w hw hpc havail =>
    have hset : PlaceInv (pool.setWorker w .look) :=
      h.changeWorker hw (by rw [hpc]; rfl) rfl (by rw [hpc]; rintro ⟨⟩)
    exact ⟨hset.place, hset.holding, hset.idle⟩
  | look w hw hpc => exact h.changeWorker hw (by rw [hpc]; rfl) rfl (by rw [hpc]; rintro ⟨⟩)
  | pop w id rest job hw hpc hentries hjob => exact h.pop hq he hw hpc hentries hjob
  | run w id value hw hpc => exact h.run hq value hw hpc
  | store w id value job hw hpc hjob =>
    have hholds : (pool.workers w).holding = some id := by rw [hpc]; rfl
    obtain ⟨htaken, hheld, hstatus, hearly⟩ := h.held hq hholds hjob
    rw [hpc] at hheld
    refine h.workOn hw hholds (.inr rfl) (.held w htaken ?_ hstatus hearly)
    rw [Function.update_self]
    exact ⟨rfl, hheld.2.1, value, hheld.2.2, rfl⟩
  | finish w id job hw hpc hjob =>
    have hholds : (pool.workers w).holding = some id := by rw [hpc]; rfl
    obtain ⟨-, hheld, -, -⟩ := h.held hq hholds hjob
    rw [hpc] at hheld
    obtain ⟨-, ⟨f, hf⟩, r, hr, hresult⟩ := hheld
    exact h.workOn hw hholds (.inl rfl)
      (h.finished hq hholds hjob rfl (.inl ⟨f, r, hf, hr, hresult⟩))
  | stop w id job hw hpc hjob =>
    have hholds : (pool.workers w).holding = some id := by rw [hpc]; rfl
    obtain ⟨-, hheld, -, -⟩ := h.held hq hholds hjob
    rw [hpc] at hheld
    refine h.workOn hw hholds (.inl rfl) (h.finished hq hholds hjob rfl (.inr ⟨hheld.2, ?_⟩))
    rw [Function.update_self]
  | destroyer pc hd => exact ⟨h.place, h.holding, h.idle⟩
  | fault fault hf => exact ⟨h.place, h.holding, h.idle⟩

/-- What a move does to the jobs: none of them changes, one is new, or one is replaced by one with
the same function; a freed one only by a worker that holds it. -/
theorem Move.jobs_cases (hmove : Move pool request pool') :
    pool'.jobs = pool.jobs ∨ (∃ f, pool'.jobs = (intPoolSubmit pool f).jobs) ∨
      ∃ j job job', pool'.jobs = Function.update pool.jobs j (some job') ∧
        pool.jobs j = some job ∧ job'.jobFunction = job.jobFunction ∧
        (job.caller = .freed → ∃ w, (pool.workers w).holding = some j) := by
  have hcalls : ∀ {caller : CallerPc} {j : ℕ} {job : JobId F R}, job.caller = caller →
      caller ≠ .freed → job.caller = .freed → ∃ w, (pool.workers w).holding = some j := by
    intro caller j job hcaller hne hfreed
    exact absurd (hcaller.symm.trans hfreed) hne
  cases hmove with
  | submit f => exact .inr (.inl ⟨_, rfl⟩)
  | start hd => exact .inl rfl
  | round i hd hi => exact .inr (.inl ⟨_, rfl⟩)
  | push j job hj hcaller =>
    exact .inr (.inr ⟨j, job, _, rfl, hj, rfl, hcalls hcaller (by rintro ⟨⟩)⟩)
  | post j job hj hcaller =>
    exact .inr (.inr ⟨j, job, _, rfl, hj, rfl, hcalls hcaller (by rintro ⟨⟩)⟩)
  | await j job hj hcaller hstatus =>
    exact .inr (.inr ⟨j, job, _, rfl, hj, rfl, hcalls hcaller (by rintro ⟨⟩)⟩)
  | free j job hj hcaller =>
    exact .inr (.inr ⟨j, job, _, rfl, hj, rfl, hcalls hcaller (by rintro ⟨⟩)⟩)
  | wait w hw hpc havail => exact .inl rfl
  | look w hw hpc => exact .inl rfl
  | pop w j rest job hw hpc hentries hj => exact .inl rfl
  | run w j value hw hpc => exact .inl rfl
  | store w j value job hw hpc hj =>
    exact .inr (.inr ⟨j, job, _, rfl, hj, rfl, fun _ => ⟨w, by rw [hpc]; rfl⟩⟩)
  | finish w j job hw hpc hj =>
    exact .inr (.inr ⟨j, job, _, rfl, hj, rfl, fun _ => ⟨w, by rw [hpc]; rfl⟩⟩)
  | stop w j job hw hpc hj =>
    exact .inr (.inr ⟨j, job, _, rfl, hj, rfl, fun _ => ⟨w, by rw [hpc]; rfl⟩⟩)
  | destroyer pc hd => exact .inl rfl
  | fault fault hf => exact .inl rfl

/-- A new job is none of those there are. -/
theorem QueueInv.jobs_submit (hq : QueueInv pool) (hjob : pool.jobs id = some job)
    (f : JobFunction F) : (intPoolSubmit pool f).jobs id = some job := by
  have hlt := hq.lt_allocated hjob
  dsimp only [intPoolSubmit, ThreadPool.setJob]
  rw [Function.update_of_ne (by omega)]
  exact hjob

/-- The jobs there are stay, with their functions. -/
theorem Move.function_kept (hmove : Move pool request pool') (hq : QueueInv pool)
    (hjob : pool.jobs id = some job) :
    ∃ job', pool'.jobs id = some job' ∧ job'.jobFunction = job.jobFunction := by
  rcases hmove.jobs_cases with heq | ⟨f, heq⟩ | ⟨j, job₀, job₁, heq, hj, hsame, -⟩
  · rw [heq]
    exact ⟨job, hjob, rfl⟩
  · rw [heq]
    exact ⟨job, hq.jobs_submit hjob f, rfl⟩
  · rw [heq]
    by_cases hid : id = j
    · rw [← hid, hjob] at hj
      cases hj
      rw [hid, Function.update_self]
      exact ⟨job₁, rfl, hsame⟩
    · rw [Function.update_of_ne hid]
      exact ⟨job, hjob, rfl⟩

/-- What a move does to the logs: a job is taken, executed or handed to its caller. -/
theorem Move.executed_cases (hmove : Move pool request pool') :
    pool'.executed = pool.executed ∨
      ∃ w id value, pool.workers w = .run id ∧
        pool'.executed = pool.executed ++ [(id, w, value)] := by
  cases hmove with
  | run w id value hw hpc => exact .inr ⟨w, id, value, hpc, rfl⟩
  | submit f => exact .inl rfl
  | start hd => exact .inl rfl
  | round i hd hi => exact .inl rfl
  | push id job hjob hcaller => exact .inl rfl
  | post id job hjob hcaller => exact .inl rfl
  | await id job hjob hcaller hstatus => exact .inl rfl
  | free id job hjob hcaller => exact .inl rfl
  | wait w hw hpc havail => exact .inl rfl
  | look w hw hpc => exact .inl rfl
  | pop w id rest job hw hpc hentries hjob => exact .inl rfl
  | store w id value job hw hpc hjob => exact .inl rfl
  | finish w id job hw hpc hjob => exact .inl rfl
  | stop w id job hw hpc hjob => exact .inl rfl
  | destroyer pc hd => exact .inl rfl
  | fault fault hf => exact .inl rfl

theorem Move.taken_cases (hmove : Move pool request pool') :
    pool'.taken = pool.taken ∨
      ∃ w id job, pool.workers w = .pop ∧ pool.jobs id = some job ∧
        pool'.workers = Function.update pool.workers w (afterPop id job) ∧
        pool'.taken = pool.taken ++ [(id, w)] := by
  cases hmove with
  | pop w id rest job hw hpc hentries hjob => exact .inr ⟨w, id, job, hpc, hjob, rfl, rfl⟩
  | submit f => exact .inl rfl
  | start hd => exact .inl rfl
  | round i hd hi => exact .inl rfl
  | push id job hjob hcaller => exact .inl rfl
  | post id job hjob hcaller => exact .inl rfl
  | await id job hjob hcaller hstatus => exact .inl rfl
  | free id job hjob hcaller => exact .inl rfl
  | wait w hw hpc havail => exact .inl rfl
  | look w hw hpc => exact .inl rfl
  | run w id value hw hpc => exact .inl rfl
  | store w id value job hw hpc hjob => exact .inl rfl
  | finish w id job hw hpc hjob => exact .inl rfl
  | stop w id job hw hpc hjob => exact .inl rfl
  | destroyer pc hd => exact .inl rfl
  | fault fault hf => exact .inl rfl

theorem Move.taken_mono (hmove : Move pool request pool') (h : (id, w) ∈ pool.taken) :
    (id, w) ∈ pool'.taken := by
  rcases hmove.taken_cases with heq | ⟨v, j, job, -, -, -, heq⟩
  · rw [heq]
    exact h
  · rw [heq]
    exact List.mem_append_left _ h

/-- **A job is executed once.** -/
theorem ExecutedInv.move (h : ExecutedInv pool) (hq : QueueInv pool) (hp : PlaceInv pool)
    (hmove : Move pool request pool') : ExecutedInv pool' := by
  have hwork : ∀ {j : ℕ}, (∃ job f, pool.jobs j = some job ∧ job.jobFunction = .function f) →
      ∃ job f, pool'.jobs j = some job ∧ job.jobFunction = .function f := by
    rintro j ⟨job, f, hjob, hf⟩
    obtain ⟨job', hjob', hsame⟩ := hmove.function_kept hq hjob
    exact ⟨job', f, hjob', hsame.trans hf⟩
  rcases hmove.executed_cases with heq | ⟨w, id, value, hpc, heq⟩
  · refine ⟨?_, ?_, ?_⟩
    · intro j v r hmem
      rw [heq] at hmem
      exact hmove.taken_mono (h.taken j v r hmem)
    · intro j v r hmem
      rw [heq] at hmem
      exact hwork (h.work j v r hmem)
    · rw [heq]
      exact h.once
  · -- the worker has the job, and it was not executed before
    have hholds : (pool.workers w).holding = some id := by rw [hpc]; rfl
    have htaken := hp.holding w id hholds
    obtain ⟨job, hjob⟩ := hq.taken_job htaken
    obtain ⟨-, hheld, -, -⟩ := hp.held hq hholds hjob
    rw [hpc] at hheld
    obtain ⟨-, ⟨f, hf⟩, hnever⟩ := hheld
    refine ⟨?_, ?_, ?_⟩
    · intro j v r hmem
      rw [heq, List.mem_append, List.mem_singleton] at hmem
      rcases hmem with hmem | hmem
      · exact hmove.taken_mono (h.taken j v r hmem)
      · cases hmem
        exact hmove.taken_mono htaken
    · intro j v r hmem
      rw [heq, List.mem_append, List.mem_singleton] at hmem
      rcases hmem with hmem | hmem
      · exact hwork (h.work j v r hmem)
      · cases hmem
        exact hwork ⟨job, f, hjob, hf⟩
    · rw [heq, List.map_append]
      refine List.Nodup.append h.once (List.nodup_singleton _) (List.disjoint_singleton.2 ?_)
      intro hold
      obtain ⟨⟨j, v, r⟩, hmem, hj⟩ := List.mem_map.1 hold
      obtain rfl : j = id := hj
      exact hnever v r hmem

/-! ## Shutdown jobs -/

def IsShutdown (pool : ThreadPool F R) (id : ℕ) : Prop :=
  ∃ job, pool.jobs id = some job ∧ job.jobFunction = .shutdown

theorem Move.isShutdown_iff (hmove : Move pool request pool') (hq : QueueInv pool)
    (hjob : pool.jobs id = some job) : IsShutdown pool' id ↔ IsShutdown pool id := by
  obtain ⟨job', hjob', hsame⟩ := hmove.function_kept hq hjob
  constructor
  · rintro ⟨_, hsome, hshutdown⟩
    rw [hjob'] at hsome
    cases hsome
    exact ⟨job, hjob, hsame ▸ hshutdown⟩
  · rintro ⟨_, hsome, hshutdown⟩
    rw [hjob] at hsome
    cases hsome
    exact ⟨job', hjob', hsame.trans hshutdown⟩

/-- A worker that has taken a shutdown job is at its end. -/
theorem PlaceInv.shutdown_pc (h : PlaceInv pool) (hq : QueueInv pool)
    (htaken : (id, w) ∈ pool.taken) (hshutdown : IsShutdown pool id) :
    pool.workers w = .shutdown id ∨ pool.workers w = .stopped := by
  obtain ⟨job, hjob, hfunction⟩ := hshutdown
  cases h.place id job hjob with
  | waiting hfree hstatus hearly => exact absurd htaken (hfree w)
  | held v hv hheld hstatus hearly =>
    obtain rfl := hq.taken_unique htaken hv
    left
    cases hpc : pool.workers v with
    | shutdown j =>
      rw [hpc] at hheld
      rw [hheld.1]
    | run j =>
      rw [hpc] at hheld
      obtain ⟨-, ⟨f, hf⟩, -⟩ := hheld
      rw [hfunction] at hf
      cases hf
    | store j r =>
      rw [hpc] at hheld
      obtain ⟨-, ⟨f, hf⟩, -⟩ := hheld
      rw [hfunction] at hf
      cases hf
    | post j =>
      rw [hpc] at hheld
      obtain ⟨-, ⟨f, hf⟩, -⟩ := hheld
      rw [hfunction] at hf
      cases hf
    | wait => rw [hpc] at hheld; exact False.elim hheld
    | look => rw [hpc] at hheld; exact False.elim hheld
    | pop => rw [hpc] at hheld; exact False.elim hheld
    | stopped => rw [hpc] at hheld; exact False.elim hheld
  | done v hv hfree hdone hstatus =>
    obtain rfl := hq.taken_unique htaken hv
    rcases hdone with ⟨f, r, hf, -, -⟩ | ⟨-, hstopped⟩
    · rw [hfunction] at hf
      cases hf
    · exact .inr hstopped

/-- What a move does to the workers: one that is not stopped goes on, and stops only with a
shutdown job. -/
theorem Move.workers_cases (hmove : Move pool request pool') :
    pool'.workers = pool.workers ∨
      ∃ v pc, pool'.workers = Function.update pool.workers v pc ∧ pool.workers v ≠ .stopped ∧
        (pc = .stopped → ∃ id, pool.workers v = .shutdown id) := by
  cases hmove with
  | submit f => exact .inl rfl
  | start hd => exact .inl rfl
  | round i hd hi => exact .inl rfl
  | push id job hjob hcaller => exact .inl rfl
  | post id job hjob hcaller => exact .inl rfl
  | await id job hjob hcaller hstatus => exact .inl rfl
  | free id job hjob hcaller => exact .inl rfl
  | wait v hv hpc havail => exact .inr ⟨v, _, rfl, by rw [hpc]; rintro ⟨⟩, by rintro ⟨⟩⟩
  | look v hv hpc => exact .inr ⟨v, _, rfl, by rw [hpc]; rintro ⟨⟩, by rintro ⟨⟩⟩
  | pop v id rest job hv hpc hentries hjob =>
    refine .inr ⟨v, _, rfl, by rw [hpc]; rintro ⟨⟩, ?_⟩
    unfold afterPop
    cases job.jobFunction with
    | shutdown => rintro ⟨⟩
    | function f => rintro ⟨⟩
  | run v id value hv hpc => exact .inr ⟨v, _, rfl, by rw [hpc]; rintro ⟨⟩, by rintro ⟨⟩⟩
  | store v id value job hv hpc hjob =>
    exact .inr ⟨v, _, rfl, by rw [hpc]; rintro ⟨⟩, by rintro ⟨⟩⟩
  | finish v id job hv hpc hjob => exact .inr ⟨v, _, rfl, by rw [hpc]; rintro ⟨⟩, by rintro ⟨⟩⟩
  | stop v id job hv hpc hjob =>
    exact .inr ⟨v, _, rfl, by rw [hpc]; rintro ⟨⟩, fun _ => ⟨id, hpc⟩⟩
  | destroyer pc hd => exact .inl rfl
  | fault fault hf => exact .inl rfl

/-- A worker that is stopped was, or has just posted its shutdown job. -/
theorem Move.stopped_cases (hmove : Move pool request pool') (h : pool'.workers w = .stopped) :
    pool.workers w = .stopped ∨ ∃ id, pool.workers w = .shutdown id := by
  rcases hmove.workers_cases with heq | ⟨v, pc, heq, -, hlast⟩
  · rw [heq] at h
    exact .inl h
  · rw [heq] at h
    by_cases hv : w = v
    · rw [hv, Function.update_self] at h
      rw [hv]
      exact .inr (hlast h)
    · rw [Function.update_of_ne hv] at h
      exact .inl h

/-- A worker that is stopped stays so. -/
theorem Move.stopped_kept (hmove : Move pool request pool') (h : pool.workers w = .stopped) :
    pool'.workers w = .stopped := by
  rcases hmove.workers_cases with heq | ⟨v, pc, heq, hrunning, -⟩
  · rw [heq]
    exact h
  · have hv : w ≠ v := by
      rintro rfl
      exact hrunning h
    rw [heq, Function.update_of_ne hv]
    exact h

structure StopInv (pool : ThreadPool F R) : Prop where
  stopped : ∀ w, pool.workers w = .stopped → ∃ id, (id, w) ∈ pool.taken ∧ IsShutdown pool id
  unique : ∀ w id id', (id, w) ∈ pool.taken → IsShutdown pool id →
    (id', w) ∈ pool.taken → IsShutdown pool id' → id = id'

/-- **A worker takes one shutdown job**, and stops with it. -/
theorem StopInv.move (h : StopInv pool) (hq : QueueInv pool) (hp : PlaceInv pool)
    (hmove : Move pool request pool') : StopInv pool' := by
  have hold : ∀ {v j : ℕ}, (j, v) ∈ pool.taken → IsShutdown pool' j → IsShutdown pool j := by
    intro v j hj hshutdown
    obtain ⟨job, hjob⟩ := hq.taken_job hj
    exact (hmove.isShutdown_iff hq hjob).1 hshutdown
  constructor
  · intro v hv
    rcases hmove.stopped_cases hv with hstopped | ⟨j, hpc⟩
    · obtain ⟨j, hj, hshutdown⟩ := h.stopped v hstopped
      obtain ⟨job, hjob⟩ := hq.taken_job hj
      exact ⟨j, hmove.taken_mono hj, (hmove.isShutdown_iff hq hjob).2 hshutdown⟩
    · have hholds : (pool.workers v).holding = some j := by rw [hpc]; rfl
      have hj := hp.holding v j hholds
      obtain ⟨job, hjob⟩ := hq.taken_job hj
      obtain ⟨-, hheld, -, -⟩ := hp.held hq hholds hjob
      rw [hpc] at hheld
      exact ⟨j, hmove.taken_mono hj, (hmove.isShutdown_iff hq hjob).2 ⟨job, hjob, hheld.2⟩⟩
  · intro v j j' hj hshutdown hj' hshutdown'
    rcases hmove.taken_cases with heq | ⟨u, k, job, hpc, -, -, heq⟩
    · rw [heq] at hj hj'
      exact h.unique v j j' hj (hold hj hshutdown) hj' (hold hj' hshutdown')
    · -- the worker that pops has taken no shutdown job before
      have hfirst : ∀ {i : ℕ}, (i, u) ∈ pool.taken → ¬ IsShutdown pool' i := by
        intro i hi hshut
        rcases hp.shutdown_pc hq hi (hold hi hshut) with hend | hend
        · rw [hpc] at hend
          cases hend
        · rw [hpc] at hend
          cases hend
      rw [heq, List.mem_append, List.mem_singleton] at hj hj'
      rcases hj with hj | hj
      · rcases hj' with hj' | hj'
        · exact h.unique v j j' hj (hold hj hshutdown) hj' (hold hj' hshutdown')
        · cases hj'
          exact absurd hshutdown (hfirst hj)
      · cases hj
        rcases hj' with hj' | hj'
        · exact absurd hshutdown' (hfirst hj')
        · cases hj'
          rfl

/-! ## Results and the end of the pool -/

/-- A freed job is not touched any more. -/
theorem Move.freed_kept (hmove : Move pool request pool') (hq : QueueInv pool) (hp : PlaceInv pool)
    (hjob : pool.jobs id = some job) (hfreed : job.caller = .freed) :
    pool'.jobs id = some job := by
  rcases hmove.jobs_cases with heq | ⟨f, heq⟩ | ⟨j, job₀, job₁, heq, hj, -, hheld⟩
  · rw [heq]
    exact hjob
  · rw [heq]
    exact hq.jobs_submit hjob f
  · have hid : id ≠ j := by
      rintro rfl
      rw [hjob] at hj
      cases hj
      -- a job that a worker holds is not freed yet
      obtain ⟨v, hholds⟩ := hheld hfreed
      obtain ⟨-, -, -, hearly⟩ := hp.held hq hholds hjob
      rw [hfreed] at hearly
      cases hearly
    rw [heq, Function.update_of_ne hid]
    exact hjob

/-- What was returned is the result of a job that is freed. -/
def ReturnedInv (pool : ThreadPool F R) : Prop :=
  ∀ id r, (id, r) ∈ pool.returned →
    ∃ job, pool.jobs id = some job ∧ job.caller = .freed ∧ job.result = r

theorem ReturnedInv.move (h : ReturnedInv pool) (hq : QueueInv pool) (hp : PlaceInv pool)
    (hmove : Move pool request pool') : ReturnedInv pool' := by
  have hkept : ∀ j r, (j, r) ∈ pool.returned →
      ∃ job, pool'.jobs j = some job ∧ job.caller = .freed ∧ job.result = r := by
    intro j r hmem
    obtain ⟨job, hjob, hfreed, hresult⟩ := h j r hmem
    exact ⟨job, hmove.freed_kept hq hp hjob hfreed, hfreed, hresult⟩
  intro j r hmem
  cases hmove with
  | free id job hjob hcaller =>
    rcases List.mem_append.1 hmem with hmem | hmem
    · exact hkept j r hmem
    · cases List.mem_singleton.1 hmem
      exact ⟨_, Function.update_self .., rfl, rfl⟩
  | submit f => exact hkept j r hmem
  | start hd => exact hkept j r hmem
  | round i hd hi => exact hkept j r hmem
  | push id job hjob hcaller => exact hkept j r hmem
  | post id job hjob hcaller => exact hkept j r hmem
  | await id job hjob hcaller hstatus => exact hkept j r hmem
  | wait w hw hpc havail => exact hkept j r hmem
  | look w hw hpc => exact hkept j r hmem
  | pop w id rest job hw hpc hentries hjob => exact hkept j r hmem
  | run w id value hw hpc => exact hkept j r hmem
  | store w id value job hw hpc hjob => exact hkept j r hmem
  | finish w id job hw hpc hjob => exact hkept j r hmem
  | stop w id job hw hpc hjob => exact hkept j r hmem
  | destroyer pc hd => exact hkept j r hmem
  | fault fault hf => exact hkept j r hmem

/-- No move is a fault. -/
theorem PlaceInv.no_fault (h : PlaceInv pool) (hq : QueueInv pool) : ¬ FaultMove pool := by
  intro hfault
  cases hfault with
  | empty v hv hpc hnil => exact hq.entry hv hpc hnil
  | popped j rest hentries hgone =>
    have hpushed : j ∈ pool.pushed := by
      rw [hq.order, hentries]
      exact List.mem_append_right _ List.mem_cons_self
    obtain ⟨job, hjob, -⟩ := (hq.pushed_iff j).1 hpushed
    have hfreed : job.caller.early = false := by
      rw [hgone job hjob]
      rfl
    obtain ⟨v, hv, -⟩ := (h.place j job hjob).done_of_status (.inr hfreed)
    have hnodup := hq.nodup
    rw [hq.order, hentries] at hnodup
    exact List.disjoint_of_nodup_append hnodup (List.mem_map_of_mem hv) List.mem_cons_self
  | held v j hv hholds hgone =>
    obtain ⟨job, hjob⟩ := hq.taken_job (h.holding v j hholds)
    obtain ⟨-, -, -, hearly⟩ := h.held hq hholds hjob
    rw [hgone job hjob] at hearly
    cases hearly

/-- The workers that `pool_destroy` has joined. -/
def JoinedInv (pool : ThreadPool F R) : Prop :=
  match pool.destroyer with
  | .join i => ∀ v < i, pool.workers v = .stopped
  | .destroyed => ∀ v < pool.workerThreadsAmount, pool.workers v = .stopped
  | _ => True

theorem Move.amount (hmove : Move pool request pool') :
    pool'.workerThreadsAmount = pool.workerThreadsAmount := by
  cases hmove <;> rfl

theorem JoinedInv.move (h : JoinedInv pool) (hmove : Move pool request pool') :
    JoinedInv pool' := by
  have hsame : pool'.destroyer = pool.destroyer → JoinedInv pool' := by
    intro heq
    unfold JoinedInv at h ⊢
    rw [heq, hmove.amount]
    split
    · rename_i i hi
      rw [hi] at h
      exact fun v hv => hmove.stopped_kept (h v hv)
    · rename_i hi
      rw [hi] at h
      exact fun v hv => hmove.stopped_kept (h v hv)
    · trivial
  cases hmove with
  | destroyer pc hd =>
    cases hd with
    | next hd hjob hcaller => trivial
    | joins hd hi => exact fun v hv => absurd hv (Nat.not_lt_zero v)
    | @joined i hd hi hstopped =>
      unfold JoinedInv at h
      rw [hd] at h
      intro v hv
      rcases Nat.lt_succ_iff_lt_or_eq.1 hv with hlt | rfl
      · exact h v hlt
      · exact hstopped
    | done hd hi =>
      unfold JoinedInv at h
      rw [hd] at h
      intro v hv
      exact h v (lt_of_lt_of_le hv (not_lt.1 hi))
  | start hd => trivial
  | round i hd hi => trivial
  | submit f => exact hsame rfl
  | push id job hjob hcaller => exact hsame rfl
  | post id job hjob hcaller => exact hsame rfl
  | await id job hjob hcaller hstatus => exact hsame rfl
  | free id job hjob hcaller => exact hsame rfl
  | wait w hw hpc havail => exact hsame rfl
  | look w hw hpc => exact hsame rfl
  | pop w id rest job hw hpc hentries hjob => exact hsame rfl
  | run w id value hw hpc => exact hsame rfl
  | store w id value job hw hpc hjob => exact hsame rfl
  | finish w id job hw hpc hjob => exact hsame rfl
  | stop w id job hw hpc hjob => exact hsame rfl
  | fault fault hf => exact hsame rfl

/-! ## The invariant -/

structure PoolInv (pool : ThreadPool F R) : Prop where
  workers : 0 < pool.workerThreadsAmount
  queue : QueueInv pool
  place : PlaceInv pool
  executed : ExecutedInv pool
  stop : StopInv pool
  returned : ReturnedInv pool
  joined : JoinedInv pool
  fault : pool.fault = none

theorem PoolInv.move (h : PoolInv pool) (hmove : Move pool request pool') : PoolInv pool' := by
  refine ⟨?_, h.queue.move hmove, h.place.move h.queue h.executed hmove,
    h.executed.move h.queue h.place hmove, h.stop.move h.queue h.place hmove,
    h.returned.move h.queue h.place hmove, h.joined.move hmove, ?_⟩
  · rw [hmove.amount]
    exact h.workers
  · cases hmove with
    | fault fault hf => exact absurd hf (h.place.no_fault h.queue)
    | _ => exact h.fault

/-- **One step** of the pool. -/
theorem PoolInv.step (h : PoolInv pool) (event : PoolEvent F R) :
    PoolInv (poolStep pool event) := by
  rcases poolStep_move pool event with heq | hmove
  · rw [heq]
    exact h
  · exact h.move hmove

theorem poolInv_create {size activeCpuCores : ℕ} (h : poolCreate size activeCpuCores = some pool) :
    PoolInv pool := by
  unfold poolCreate at h
  by_cases hzero : size = 0 ∧ activeCpuCores = 0
  · rw [if_pos hzero] at h
    cases h
  rw [if_neg hzero] at h
  cases h
  refine ⟨?_, ⟨fun _ _ => rfl, rfl, rfl, List.nodup_nil, ?_, ?_⟩, ⟨?_, ?_, fun _ _ => rfl⟩,
    ⟨?_, ?_, List.nodup_nil⟩, ⟨?_, ?_⟩, ?_, trivial, rfl⟩
  · dsimp only
    split_ifs <;> omega
  · intro id
    constructor
    · rintro ⟨⟩
    · rintro ⟨_, hsome, -⟩
      cases hsome
  · have hworkers : tally looking (fun _ => (.wait : WorkerPc R))
        (if size = 0 then activeCpuCores + 1 else size) = 0 := tally_eq_zero fun _ _ => rfl
    dsimp only
    rw [hworkers]
    rfl
  · rintro _ _ ⟨⟩
  · rintro _ _ ⟨⟩
  · rintro _ _ _ ⟨⟩
  · rintro _ _ _ ⟨⟩
  · rintro _ ⟨⟩
  · rintro _ _ _ ⟨⟩
  · rintro _ _ ⟨⟩

/-- **Runs.** -/
theorem PoolInv.run (h : PoolInv pool) (events : List (PoolEvent F R)) :
    PoolInv (runFrom poolStep pool events) := by
  induction events generalizing pool with
  | nil => exact h
  | cons event events ih => exact ih (h.step event)

end SimpleServer.Utils
