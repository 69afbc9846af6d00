import SimpleServer.Proof.ConnectionList

/-!
# The mutex of the connections

A function of the manager that fails returns without unlocking the mutex.

* `Change`: what an event does to the mutex and to the threads.
* `Held`: the thread that has the mutex is inside of a function; kept where nothing fails.
* `Stuck`: nobody is inside, and the mutex is locked; kept by every event.
* `Held.unlocks`: a thread that is inside gets out.
* `mutex_run`: **every run.**
-/

namespace SimpleServer.Ws

open Lib LinkedList

variable {manager manager' : ThreadManager} {entries entries' : Entries} {thread : ℕ}
  {place place' : Place} {event : ThreadEvent}

/-- At this event a function that has locked the mutex returns without unlocking it. -/
def ThreadManager.failsInside (manager : ThreadManager) : ThreadEvent → Bool
  | .step thread none =>
    match manager.threads thread with
    | some .addMalloc | some (.addWalk _ _ none) | some (.addArgument _) | some (.addCreate _)
    | some (.addDetach _) => true
    | _ => false
  | _ => false

/-- The list and what is allocated. -/
def SameMemory (manager manager' : ThreadManager) : Prop :=
  manager'.head = manager.head ∧ manager'.nodes = manager.nodes ∧
    manager'.connections = manager.connections

theorem SameMemory.trans {manager'' : ThreadManager} (h : SameMemory manager manager')
    (h' : SameMemory manager' manager'') : SameMemory manager manager'' :=
  ⟨h'.1.trans h.1, h'.2.1.trans h.2.1, h'.2.2.trans h.2.2⟩

/-- What an event does to the mutex and to the threads. -/
inductive Change (manager manager' : ThreadManager) (event : ThreadEvent) : Prop where
  | stays (mutex : manager'.mutex = manager.mutex) (threads : manager'.threads = manager.threads)
    (memory : SameMemory manager manager')
  | goes (thread : ℕ) (place place' : Place) (before : manager.threads thread = some place)
    (mutex : manager'.mutex = manager.mutex)
    (threads : manager'.threads = Function.update manager.threads thread (some place'))
    (locked : place'.locked = (place.locked && !manager.failsInside event))
    (memory : place.locked = false → SameMemory manager manager')
  | creates (thread listener : ℕ) (connection : Address)
    (before : manager.threads thread = some (.addCreate connection))
    (fresh : manager.threads listener = none) (mutex : manager'.mutex = manager.mutex)
    (threads : manager'.threads = Function.update
      (Function.update manager.threads listener (some (.listening connection))) thread
      (some (.addDetach connection)))
    (passes : manager.failsInside event = false)
  | locks (thread : ℕ) (place place' : Place) (before : manager.threads thread = some place)
    (free : manager.mutex = none) (mutex : manager'.mutex = some thread)
    (threads : manager'.threads = Function.update manager.threads thread (some place'))
    (locked : place'.locked = true) (passes : manager.failsInside event = false)
  | unlocks (thread : ℕ) (place place' : Place) (before : manager.threads thread = some place)
    (inside : place.locked = true) (mutex : manager'.mutex = none)
    (threads : manager'.threads = Function.update manager.threads thread (some place'))
    (locked : place'.locked = false) (passes : manager.failsInside event = false)

@[simp] theorem setNext_threads (node next : Option Address) :
    (manager.setNext node next).threads = manager.threads ∧
      (manager.setNext node next).mutex = manager.mutex := by
  unfold ThreadManager.setNext
  split
  · exact ⟨rfl, rfl⟩
  · split
    · exact ⟨rfl, rfl⟩
    · exact ⟨rfl, rfl⟩

@[simp] theorem freeConnection_threads (connection : Address) :
    (manager.freeConnection connection).threads = manager.threads ∧
      (manager.freeConnection connection).mutex = manager.mutex := by
  unfold ThreadManager.freeConnection
  split
  · exact ⟨rfl, rfl⟩
  · exact ⟨rfl, rfl⟩

@[simp] theorem freeNode_threads (address : Address) :
    (manager.freeNode address).threads = manager.threads ∧
      (manager.freeNode address).mutex = manager.mutex := by
  unfold ThreadManager.freeNode
  split
  · exact ⟨rfl, rfl⟩
  · exact ⟨rfl, rfl⟩

theorem Change.same (event : ThreadEvent) : Change manager manager event :=
  .stays rfl rfl ⟨rfl, rfl, rfl⟩

theorem Change.failed (event : ThreadEvent) : Change manager manager.failed event :=
  .stays rfl rfl ⟨rfl, rfl, rfl⟩

theorem change_lock (ht : manager.threads thread = some place) (hlocked : place'.locked = true)
    (hpasses : manager.failsInside event = false) :
    Change manager (manager.lock thread place') event := by
  unfold ThreadManager.lock
  cases hmutex : manager.mutex with
  | some holder => exact .same event
  | none => exact .locks thread place place' ht hmutex rfl rfl hlocked hpasses

theorem change_unlock (ht : manager.threads thread = some place) (hinside : place.locked = true)
    (hlocked : place'.locked = false) (hpasses : manager.failsInside event = false) :
    Change manager (manager.unlock thread place') event := by
  unfold ThreadManager.unlock
  split_ifs
  · exact .unlocks thread place place' ht hinside rfl rfl hlocked hpasses
  · exact .failed event

/-- A thread goes on, with changes to memory if it is inside. -/
theorem change_goTo (ht : manager.threads thread = some place)
    (hthreads : manager'.threads = manager.threads ∧ manager'.mutex = manager.mutex)
    (hlocked : place'.locked = (place.locked && !manager.failsInside event))
    (hmemory : place.locked = false → SameMemory manager manager') :
    Change manager (manager'.goTo thread place') event := by
  refine .goes thread place place' ht hthreads.2 ?_ hlocked hmemory
  rw [← hthreads.1]
  rfl

theorem change_addStep {found : Option ℕ} (ht : manager.threads thread = some place) :
    Change manager (manager.addStep thread found place) (.step thread found) := by
  have hsame : ∀ event, place.locked = true → manager.failsInside event = false →
      ∀ {place' : Place}, place'.locked = true →
        Change manager (manager.goTo thread place') event := by
    intro event hinside hpasses place' hlocked
    refine change_goTo ht ⟨rfl, rfl⟩ ?_ fun hout => ?_
    · rw [hlocked, hinside, hpasses]
      rfl
    · rw [hinside] at hout
      cases hout
  have hfails : ∀ event {manager' : ThreadManager}, place.locked = true →
      manager.failsInside event = true →
      manager'.threads = manager.threads ∧ manager'.mutex = manager.mutex →
      Change manager (manager'.goTo thread (.addReturn none)) event := by
    intro event manager' hinside hfails hthreads
    refine change_goTo ht hthreads ?_ fun hout => ?_
    · rw [hinside, hfails]
      rfl
    · rw [hinside] at hout
      cases hout
  have hpasses : ∀ value, manager.failsInside (.step thread (some value)) = false := fun _ => rfl
  cases place with
  | addLock =>
    have hpass : manager.failsInside (.step thread found) = false := by
      cases found with
      | none => simp only [ThreadManager.failsInside, ht]
      | some value => exact hpasses value
    exact change_lock ht rfl hpass
  | addMalloc =>
    cases found with
    | none =>
      refine hfails _ rfl ?_ ⟨rfl, rfl⟩
      simp only [ThreadManager.failsInside, ht]
    | some connection =>
      simp only [ThreadManager.addStep]
      split_ifs
      · exact .same _
      · exact .goes thread _ _ ht rfl rfl rfl fun hout => by cases hout
  | addWalk connection currentNode nextNode =>
    cases nextNode with
    | none =>
      cases found with
      | none =>
        refine hfails _ rfl ?_ (freeConnection_threads connection)
        simp only [ThreadManager.failsInside, ht]
      | some newNode =>
        simp only [ThreadManager.addStep]
        split_ifs
        · exact .same _
        · refine change_goTo ht (setNext_threads ..) rfl fun hout => ?_
          cases hout
    | some nextNode =>
      have hpass : manager.failsInside (.step thread found) = false := by
        cases found with
        | none => simp only [ThreadManager.failsInside, ht]
        | some value => exact hpasses value
      simp only [ThreadManager.addStep]
      split
      · exact .failed _
      · exact hsame _ rfl hpass rfl
  | addArgument connection =>
    cases found with
    | none =>
      refine hfails _ rfl ?_ ⟨rfl, rfl⟩
      simp only [ThreadManager.failsInside, ht]
    | some argument => exact hsame _ rfl (hpasses argument) rfl
  | addCreate connection =>
    cases found with
    | none =>
      refine hfails _ rfl ?_ ⟨rfl, rfl⟩
      simp only [ThreadManager.failsInside, ht]
    | some listener =>
      simp only [ThreadManager.addStep]
      split_ifs with hused
      · exact .same _
      · exact .creates thread listener connection ht (Option.not_isSome_iff_eq_none.1 hused) rfl rfl
          (hpasses listener)
  | addDetach connection =>
    simp only [ThreadManager.addStep]
    split_ifs
    · exact .failed _
    · cases found with
      | none =>
        refine hfails _ rfl ?_ ⟨rfl, rfl⟩
        simp only [ThreadManager.failsInside, ht]
      | some value => exact hsame _ rfl (hpasses value) rfl
  | addUnlock connection =>
    have hpass : manager.failsInside (.step thread found) = false := by
      cases found with
      | none => simp only [ThreadManager.failsInside, ht]
      | some value => exact hpasses value
    exact change_unlock ht rfl rfl hpass
  | _ => exact .same _

theorem change_removeStep {found : Option ℕ} (ht : manager.threads thread = some place)
    (hpass : manager.failsInside (.step thread found) = false) :
    Change manager (manager.removeStep thread place) (.step thread found) := by
  have hgoes : ∀ {manager' : ThreadManager} {place' : Place}, place.locked = true →
      place'.locked = true →
      manager'.threads = manager.threads ∧ manager'.mutex = manager.mutex →
      Change manager (manager'.goTo thread place') (.step thread found) := by
    intro manager' place' hinside hlocked hthreads
    refine change_goTo ht hthreads ?_ fun hout => ?_
    · rw [hlocked, hinside, hpass]
      rfl
    · rw [hinside] at hout
      cases hout
  cases place with
  | removeLock connection => exact change_lock ht rfl hpass
  | removeWalk connection currentNode previousNode =>
    cases currentNode with
    | none => exact hgoes rfl rfl ⟨rfl, rfl⟩
    | some currentNode =>
      simp only [ThreadManager.removeStep]
      split
      · exact .failed _
      · split_ifs
        · refine hgoes rfl rfl ⟨?_, ?_⟩
          · rw [(freeNode_threads _).1, (setNext_threads ..).1, (freeConnection_threads _).1]
          · rw [(freeNode_threads _).2, (setNext_threads ..).2, (freeConnection_threads _).2]
        · exact hgoes rfl rfl ⟨rfl, rfl⟩
  | removeUnlock removed => exact change_unlock ht rfl rfl hpass
  | _ => exact .same _

/-- **What an event does** to the mutex and to the threads. -/
theorem change_step (manager : ThreadManager) (event : ThreadEvent) :
    Change manager (manager.step event) event := by
  have hmoves : ∀ {thread : ℕ} {place place' : Place} event, manager.threads thread = some place →
      place.locked = false → place'.locked = false →
      Change manager (manager.goTo thread place') event := by
    intro thread place place' event ht hout hout'
    refine change_goTo ht ⟨rfl, rfl⟩ ?_ fun _ => ⟨rfl, rfl, rfl⟩
    rw [hout, hout']
    rfl
  cases event with
  | call thread =>
    simp only [ThreadManager.step]
    split
    · exact hmoves _ ‹_› rfl rfl
    · exact hmoves _ ‹_› rfl rfl
    · exact .same _
  | step thread found =>
    cases ht : manager.threads thread with
    | none => simpa only [ThreadManager.step, ht] using .same _
    | some place =>
      cases place with
      | removeLock | removeWalk | removeUnlock =>
        have hpass : manager.failsInside (.step thread found) = false := by
          cases found with
          | none => simp only [ThreadManager.failsInside, ht]
          | some value => exact rfl
        simp only [ThreadManager.step, ht]
        exact change_removeStep ht hpass
      | _ =>
        simp only [ThreadManager.step, ht]
        exact change_addStep ht
  | receive thread =>
    simp only [ThreadManager.step]
    split
    · split_ifs
      · exact .same _
      · exact .failed _
    · exact .same _
  | close thread =>
    simp only [ThreadManager.step]
    split
    · split_ifs
      · exact hmoves _ ‹_› rfl rfl
      · exact .failed _
    · exact .same _
  | leave thread =>
    simp only [ThreadManager.step]
    split
    · exact hmoves _ ‹_› rfl rfl
    · exact .same _

/-! ## The mutex is held -/

/-- The thread that has the mutex is inside of a function. -/
def Held (manager : ThreadManager) : Prop :=
  ∀ thread, manager.mutex = some thread →
    ∃ place, manager.threads thread = some place ∧ place.locked = true

/-- The mutex is locked, and nobody is inside. -/
def Stuck (manager : ThreadManager) : Prop :=
  manager.mutex ≠ none ∧
    ∀ thread place, manager.threads thread = some place → place.locked = false

/-- There are threads that do not exist yet. -/
def Bounded (manager : ThreadManager) : Prop :=
  ∃ bound, ∀ thread, bound ≤ thread → manager.threads thread = none

theorem Held.step (h : Held manager) (hpass : manager.failsInside event = false) :
    Held (manager.step event) := by
  intro holder hmutex'
  rcases change_step manager event with ⟨hmutex, hthreads, -⟩ |
    ⟨thread, place, place', hbefore, hmutex, hthreads, hlocked, -⟩ |
    ⟨thread, listener, connection, hbefore, hfresh, hmutex, hthreads, -⟩ |
    ⟨thread, place, place', hbefore, -, hmutex, hthreads, hlocked, -⟩ |
    ⟨thread, place, place', -, -, hmutex, -, -, -⟩
  · rw [hmutex] at hmutex'
    rw [hthreads]
    exact h holder hmutex'
  · rw [hmutex] at hmutex'
    obtain ⟨q, hq, hqlocked⟩ := h holder hmutex'
    by_cases heq : holder = thread
    · refine ⟨place', by rw [heq, hthreads, Function.update_self], ?_⟩
      rw [heq, hbefore] at hq
      rw [hlocked, Option.some.inj hq, hqlocked, hpass]
      rfl
    · exact ⟨q, by rw [hthreads, Function.update_of_ne heq, hq], hqlocked⟩
  · rw [hmutex] at hmutex'
    obtain ⟨q, hq, hqlocked⟩ := h holder hmutex'
    by_cases heq : holder = thread
    · exact ⟨_, by rw [heq, hthreads, Function.update_self], rfl⟩
    · have hlistener : holder ≠ listener := by
        intro heq'
        rw [heq', hfresh] at hq
        cases hq
      refine ⟨q, ?_, hqlocked⟩
      rw [hthreads, Function.update_of_ne heq, Function.update_of_ne hlistener, hq]
  · rw [hmutex] at hmutex'
    obtain rfl := Option.some.inj hmutex'
    exact ⟨place', by rw [hthreads, Function.update_self], hlocked⟩
  · rw [hmutex] at hmutex'
    cases hmutex'

/-- **Where nobody is inside, nothing changes.** -/
theorem Stuck.step (h : Stuck manager) (event : ThreadEvent) :
    Stuck (manager.step event) ∧ (manager.step event).mutex = manager.mutex ∧
      SameMemory manager (manager.step event) := by
  rcases change_step manager event with ⟨hmutex, hthreads, hmemory⟩ |
    ⟨thread, place, place', hbefore, hmutex, hthreads, hlocked, hmemory⟩ |
    ⟨thread, listener, connection, hbefore, -, -, -, -⟩ |
    ⟨thread, place, place', -, hfree, -, -, -, -⟩ |
    ⟨thread, place, place', hbefore, hinside, -, -, -, -⟩
  · refine ⟨⟨by rw [hmutex]; exact h.1, ?_⟩, hmutex, hmemory⟩
    rw [hthreads]
    exact h.2
  · have hout := h.2 thread place hbefore
    refine ⟨⟨by rw [hmutex]; exact h.1, ?_⟩, hmutex, hmemory hout⟩
    intro other q hq
    by_cases heq : other = thread
    · rw [heq, hthreads, Function.update_self] at hq
      rw [← Option.some.inj hq, hlocked, hout]
      rfl
    · rw [hthreads, Function.update_of_ne heq] at hq
      exact h.2 other q hq
  · cases h.2 thread _ hbefore
  · exact absurd hfree h.1
  · rw [h.2 thread place hbefore] at hinside
    cases hinside

theorem Stuck.run (h : Stuck manager) (future : List ThreadEvent) :
    (runFrom ThreadManager.step manager future).mutex = manager.mutex ∧
      SameMemory manager (runFrom ThreadManager.step manager future) := by
  induction future generalizing manager with
  | nil => exact ⟨rfl, rfl, rfl, rfl⟩
  | cons event future ih =>
    obtain ⟨hstuck, hmutex, hmemory⟩ := h.step event
    obtain ⟨hmutex', hmemory'⟩ := ih hstuck
    exact ⟨hmutex'.trans hmutex, hmemory.trans hmemory'⟩

theorem Bounded.step (h : Bounded manager) (event : ThreadEvent) :
    Bounded (manager.step event) := by
  obtain ⟨bound, hbound⟩ := h
  have hthread : ∀ {thread place}, manager.threads thread = some place → thread < bound := by
    intro thread place ht
    by_contra hge
    rw [hbound thread (by omega)] at ht
    cases ht
  have hupdate : ∀ {thread place place'}, manager.threads thread = some place →
      (manager.step event).threads = Function.update manager.threads thread (some place') →
      Bounded (manager.step event) := by
    intro thread place place' ht hthreads
    have hlt := hthread ht
    refine ⟨bound, fun other hother => ?_⟩
    rw [hthreads, Function.update_of_ne (by omega), hbound other hother]
  rcases change_step manager event with ⟨-, hthreads, -⟩ |
    ⟨thread, place, place', hbefore, -, hthreads, -, -⟩ |
    ⟨thread, listener, connection, hbefore, -, -, hthreads, -⟩ |
    ⟨thread, place, place', hbefore, -, -, hthreads, -, -⟩ |
    ⟨thread, place, place', hbefore, -, -, hthreads, -, -⟩
  · exact ⟨bound, by rw [hthreads]; exact hbound⟩
  · exact hupdate hbefore hthreads
  · have hlt := hthread hbefore
    refine ⟨max bound (listener + 1), fun other hother => ?_⟩
    rw [hthreads, Function.update_of_ne (by omega), Function.update_of_ne (by omega),
      hbound other (by omega)]
  · exact hupdate hbefore hthreads
  · exact hupdate hbefore hthreads

/-- A function that fails inside leaves the mutex locked. -/
theorem Inv.stuck (h : Inv manager entries) (hfails : manager.failsInside event = true) :
    Stuck (manager.step event) := by
  have hreturns : ∀ {thread place} {manager' : ThreadManager},
      manager.threads thread = some place → place.locked = true →
      manager'.threads = manager.threads ∧ manager'.mutex = manager.mutex →
      Stuck (manager'.goTo thread (.addReturn none)) := by
    intro thread place manager' ht hinside hthreads
    have hmutex := (h.locked thread place ht hinside).1
    refine ⟨?_, fun other q hq => ?_⟩
    · intro hnone
      have hmutex' : manager'.mutex = none := hnone
      rw [hthreads.2, hmutex] at hmutex'
      cases hmutex'
    · by_cases heq : other = thread
      · rw [heq, goTo_threads_self] at hq
        rw [← Option.some.inj hq]
        rfl
      · have hq' : manager.threads other = some q := by
          rw [← hthreads.1]
          exact (Function.update_of_ne heq ..).symm.trans hq
        by_contra hlocked
        have hholder := (h.locked other q hq' (Bool.not_eq_false _ ▸ hlocked)).1
        rw [hmutex] at hholder
        exact heq (Option.some.inj hholder).symm
  unfold ThreadManager.failsInside at hfails
  split at hfails
  · split at hfails
    · simp only [ThreadManager.step, ‹manager.threads _ = _›]
      exact hreturns ‹_› rfl ⟨rfl, rfl⟩
    · simp only [ThreadManager.step, ‹manager.threads _ = _›]
      exact hreturns ‹_› rfl (freeConnection_threads _)
    · simp only [ThreadManager.step, ‹manager.threads _ = _›]
      exact hreturns ‹_› rfl ⟨rfl, rfl⟩
    · simp only [ThreadManager.step, ‹manager.threads _ = _›]
      exact hreturns ‹_› rfl ⟨rfl, rfl⟩
    · have hlive := h.live _ (h.locked _ _ ‹manager.threads _ = _› rfl).2
      simp only [ThreadManager.step, ‹manager.threads _ = _›, ThreadManager.addStep, hlive,
        Bool.not_true, Bool.false_eq_true, if_false]
      exact hreturns ‹_› rfl ⟨rfl, rfl⟩
    · cases hfails
  · cases hfails

/-! ## A thread that is inside gets out -/

/-- Some future of a state unlocks the mutex. -/
def Unlocks (manager : ThreadManager) : Prop :=
  ∃ future, (runFrom ThreadManager.step manager future).mutex = none

theorem Unlocks.of_step (event : ThreadEvent) (h : Unlocks (manager.step event)) :
    Unlocks manager := by
  obtain ⟨future, hfuture⟩ := h
  exact ⟨event :: future, hfuture⟩

theorem unlocks_of_unlock (hstep : manager.step event = manager.unlock thread place')
    (hmutex : manager.mutex = some thread) : Unlocks manager := by
  refine ⟨[event], ?_⟩
  rw [runFrom_cons, runFrom_nil, hstep, ThreadManager.unlock, if_pos hmutex]

theorem Inv.unlocks_addUnlock (h : Inv manager entries) {connection : Address}
    (ht : manager.threads thread = some (.addUnlock connection)) : Unlocks manager := by
  have hstep : manager.step (.step thread none) =
      manager.unlock thread (.addReturn (some connection)) := by
    simp only [ThreadManager.step, ht]
    rfl
  exact unlocks_of_unlock hstep (h.locked thread _ ht rfl).1

theorem Inv.unlocks_addDetach (h : Inv manager entries) {connection : Address}
    (ht : manager.threads thread = some (.addDetach connection)) : Unlocks manager := by
  have hlive := h.live connection (h.locked thread _ ht rfl).2
  have hplace : (manager.step (.step thread (some 0))).threads thread =
      some (.addUnlock connection) := by
    simp only [ThreadManager.step, ht, ThreadManager.addStep, hlive, Bool.not_true,
      Bool.false_eq_true, if_false, goTo_threads_self]
  obtain ⟨entries', h', -⟩ := h.step (.step thread (some 0))
  exact (h'.unlocks_addUnlock hplace).of_step _

theorem Inv.unlocks_addCreate (h : Inv manager entries) (hbounded : Bounded manager)
    {connection : Address} (ht : manager.threads thread = some (.addCreate connection)) :
    Unlocks manager := by
  obtain ⟨bound, hbound⟩ := hbounded
  have hfresh := hbound bound le_rfl
  have hplace : (manager.step (.step thread (some bound))).threads thread =
      some (.addDetach connection) := by
    simp only [ThreadManager.step, ht, ThreadManager.addStep, hfresh, Option.isSome_none,
      Bool.false_eq_true, if_false, goTo_threads_self]
  obtain ⟨entries', h', -⟩ := h.step (.step thread (some bound))
  exact (h'.unlocks_addDetach hplace).of_step _

theorem Inv.unlocks_addArgument (h : Inv manager entries) (hbounded : Bounded manager)
    {connection : Address} (ht : manager.threads thread = some (.addArgument connection)) :
    Unlocks manager := by
  have hplace : (manager.step (.step thread (some 0))).threads thread =
      some (.addCreate connection) := by
    simp only [ThreadManager.step, ht, ThreadManager.addStep, goTo_threads_self]
  obtain ⟨entries', h', -⟩ := h.step (.step thread (some 0))
  exact (h'.unlocks_addCreate (hbounded.step _) hplace).of_step _

/-- The walk of an insertion, by induction on what is behind. -/
theorem Inv.unlocks_addWalk (h : Inv manager entries) (hbounded : Bounded manager)
    {connection : Address} {currentNode nextNode : Option Address} {before behind : Entries}
    (ht : manager.threads thread = some (.addWalk connection currentNode nextNode))
    (hat : At manager.nodes entries currentNode nextNode before behind) : Unlocks manager := by
  induction behind generalizing manager currentNode nextNode before with
  | nil =>
    have hend : nextNode = none := hat.2.2
    rw [hend] at ht
    obtain ⟨newNode, hnew⟩ := Infinite.exists_notMem_finset entries.nodes.toFinset
    have hfree : manager.nodes newNode = none := by
      by_contra hsome
      exact hnew (List.mem_toFinset.2 (h.nodes newNode (Option.isSome_iff_ne_none.2 hsome)))
    have hplace : (manager.step (.step thread (some newNode))).threads thread =
        some (.addArgument connection) := by
      simp only [ThreadManager.step, ht, ThreadManager.addStep, hfree, Option.isSome_none,
        Bool.false_eq_true, if_false, goTo_threads_self]
    obtain ⟨entries', h', -⟩ := h.step (.step thread (some newNode))
    exact (h'.unlocks_addArgument (hbounded.step _) hplace).of_step _
  | cons entry rest ih =>
    have hnext : nextNode = some entry.1 := hat.2.2.1
    rw [hnext] at ht hat
    obtain ⟨node, hnode⟩ := hat.exists_node
    obtain ⟨rest', hrest, hat'⟩ := hat.next hnode
    obtain rfl := (List.cons.inj hrest).2
    obtain ⟨-, hlive, hnew, -⟩ := h.locked thread _ ht rfl
    have hstep : manager.step (.step thread none) =
        manager.goTo thread (.addWalk connection (some entry.1) node.next) := by
      simp only [ThreadManager.step, ht, ThreadManager.addStep, hnode]
    have h' : Inv (manager.step (.step thread none)) entries := by
      rw [hstep]
      refine h.goTo ht ?_ (fun _ hhand => hhand) ?_ (fun _ => rfl)
        fun _ => ⟨hlive, hnew, _, rest, hat'⟩
      · intro other howned
        cases howned
      · intro removed hremoved
        cases hremoved
    have hplace : (manager.step (.step thread none)).threads thread =
        some (.addWalk connection (some entry.1) node.next) := by
      rw [hstep, goTo_threads_self]
    have hat'' : At (manager.step (.step thread none)).nodes entries (some entry.1) node.next
        (before ++ [(entry.1, node.connection)]) rest := by
      rw [hstep]
      exact hat'
    exact (ih h' (hbounded.step _) hplace hat'').of_step _

theorem Inv.unlocks_addMalloc (h : Inv manager entries) (hbounded : Bounded manager)
    (ht : manager.threads thread = some .addMalloc) : Unlocks manager := by
  obtain ⟨connection, hnew⟩ := Infinite.exists_notMem_finset entries.connections.toFinset
  have hfree : manager.connections connection = false := by
    by_contra hlive
    rcases h.listed_hand ht rfl (Bool.not_eq_false _ ▸ hlive) with hin | hhand
    · exact hnew (List.mem_toFinset.2 hin)
    · cases hhand
  have hstep : manager.step (.step thread (some connection)) =
      { manager.goTo thread (.addWalk connection none manager.head) with
        connections := Function.update manager.connections connection true } := by
    simp only [ThreadManager.step, ht, ThreadManager.addStep, hfree, Bool.false_eq_true, if_false]
  have h' : Inv (manager.step (.step thread (some connection))) entries := by
    rw [hstep]
    exact h.allocate ht hfree
  have hplace : (manager.step (.step thread (some connection))).threads thread =
      some (.addWalk connection none manager.head) := by
    rw [hstep]
    exact goTo_threads_self
  have hat : At (manager.step (.step thread (some connection))).nodes entries none manager.head []
      entries := by
    rw [hstep]
    exact ⟨rfl, rfl, h.list⟩
  exact (h'.unlocks_addWalk (hbounded.step _) hplace hat).of_step _

theorem Inv.unlocks_removeUnlock (h : Inv manager entries) {removed : Bool}
    (ht : manager.threads thread = some (.removeUnlock removed)) : Unlocks manager := by
  have hstep :
      manager.step (.step thread none) = manager.unlock thread (.ended (some removed)) := by
    simp only [ThreadManager.step, ht]
    rfl
  exact unlocks_of_unlock hstep (h.locked thread _ ht rfl).1

/-- The walk of a removal, by induction on what is behind. -/
theorem Inv.unlocks_removeWalk (h : Inv manager entries) {connection : Address}
    {currentNode previousNode : Option Address} {before behind : Entries}
    (ht : manager.threads thread = some (.removeWalk connection currentNode previousNode))
    (hat : At manager.nodes entries previousNode currentNode before behind)
    (hbefore : connection ∉ before.connections) : Unlocks manager := by
  induction behind generalizing manager currentNode previousNode before with
  | nil =>
    have hend : currentNode = none := hat.2.2
    rw [hend] at ht
    have hplace :
        (manager.step (.step thread none)).threads thread = some (.removeUnlock false) := by
      simp only [ThreadManager.step, ht, ThreadManager.removeStep, goTo_threads_self]
    obtain ⟨entries', h', -⟩ := h.step (.step thread none)
    exact (h'.unlocks_removeUnlock hplace).of_step _
  | cons entry rest ih =>
    have hnext : currentNode = some entry.1 := hat.2.2.1
    rw [hnext] at ht hat
    obtain ⟨node, hnode⟩ := hat.exists_node
    obtain ⟨rest', hrest, hat'⟩ := hat.next hnode
    obtain rfl := (List.cons.inj hrest).2
    by_cases hfound : node.connection = connection
    · have hplace : (manager.step (.step thread none)).threads thread =
          some (.removeUnlock true) := by
        simp only [ThreadManager.step, ht, ThreadManager.removeStep, hnode, hfound, if_true,
          goTo_threads_self]
      obtain ⟨entries', h', -⟩ := h.step (.step thread none)
      exact (h'.unlocks_removeUnlock hplace).of_step _
    · have hstep : manager.step (.step thread none) =
          manager.goTo thread (.removeWalk connection node.next (some entry.1)) := by
        simp only [ThreadManager.step, ht, ThreadManager.removeStep, hnode, hfound, if_false]
      have hbefore' : connection ∉
          Entries.connections (before ++ [(entry.1, node.connection)]) := by
        rw [Entries.connections, List.map_append, List.mem_append, List.map_singleton,
          List.mem_singleton]
        rintro (hin | heq)
        · exact hbefore hin
        · exact hfound heq.symm
      have h' : Inv (manager.step (.step thread none)) entries := by
        rw [hstep]
        refine h.goTo ht (fun _ howned => howned) ?_ ?_ (fun _ => rfl)
          fun _ => ⟨_, rest, hat', hbefore'⟩
        · intro other hhand
          cases hhand
        · intro removed hremoved
          cases hremoved
      have hplace : (manager.step (.step thread none)).threads thread =
          some (.removeWalk connection node.next (some entry.1)) := by
        rw [hstep, goTo_threads_self]
      have hat'' : At (manager.step (.step thread none)).nodes entries (some entry.1) node.next
          (before ++ [(entry.1, node.connection)]) rest := by
        rw [hstep]
        exact hat'
      exact (ih h' hplace hat'' hbefore').of_step _

/-- **A thread that is inside gets out.** -/
theorem Held.unlocks (hheld : Held manager) (h : Inv manager entries) (hbounded : Bounded manager) :
    Unlocks manager := by
  cases hmutex : manager.mutex with
  | none => exact ⟨[], hmutex⟩
  | some thread =>
    obtain ⟨place, ht, hlocked⟩ := hheld thread hmutex
    have hknows := (h.locked thread place ht hlocked).2
    cases place with
    | addMalloc => exact h.unlocks_addMalloc hbounded ht
    | addWalk connection currentNode nextNode =>
      obtain ⟨-, -, before, behind, hat⟩ := hknows
      exact h.unlocks_addWalk hbounded ht hat
    | addArgument connection => exact h.unlocks_addArgument hbounded ht
    | addCreate connection => exact h.unlocks_addCreate hbounded ht
    | addDetach connection => exact h.unlocks_addDetach ht
    | addUnlock connection => exact h.unlocks_addUnlock ht
    | removeWalk connection currentNode previousNode =>
      obtain ⟨before, behind, hat, hbefore⟩ := hknows
      exact h.unlocks_removeWalk ht hat hbefore
    | removeUnlock removed => exact h.unlocks_removeUnlock ht
    | _ => cases hlocked

theorem Bounded.run (h : Bounded manager) (events : List ThreadEvent) :
    Bounded (runFrom ThreadManager.step manager events) := by
  induction events generalizing manager with
  | nil => exact h
  | cons event events ih => exact ih (h.step event)

theorem bounded_new (workers : ℕ) : Bounded (initializeThreadManager workers) :=
  ⟨workers, fun _ hthread => if_neg (by omega)⟩

/-- A function fails in a run, and nothing changes from there on. -/
theorem Inv.stuck_of_fails (h : Inv manager entries) {events : List ThreadEvent}
    (hfails : ¬ Along ThreadManager.step
      (fun manager event => manager.failsInside event = false) manager events) :
    Stuck (runFrom ThreadManager.step manager events) := by
  have hrun : ∀ {manager : ThreadManager} events, Stuck manager →
      Stuck (runFrom ThreadManager.step manager events) := by
    intro manager events
    induction events generalizing manager with
    | nil => exact fun hstuck => hstuck
    | cons event events ih => exact fun hstuck => ih (hstuck.step event).1
  induction events generalizing manager entries with
  | nil => exact absurd trivial hfails
  | cons event events ih =>
    by_cases hpass : manager.failsInside event = false
    · obtain ⟨entries', h', -⟩ := h.step event
      exact ih h' fun halong => hfails ⟨hpass, halong⟩
    · exact hrun events (h.stuck (Bool.not_eq_false _ ▸ hpass))

/-- **The mutex, in every run.** Somebody can still unlock it if and only if no function has failed
after it locked the mutex. Where one has, the list stays what it is for ever. -/
theorem mutex_run (workers : ℕ) (events : List ThreadEvent) :
    let manager := runFrom ThreadManager.step (initializeThreadManager workers) events
    ((∃ future, (runFrom ThreadManager.step manager future).mutex = none) ↔
      Along ThreadManager.step (fun manager event => manager.failsInside event = false)
        (initializeThreadManager workers) events) ∧
    (¬ Along ThreadManager.step (fun manager event => manager.failsInside event = false)
        (initializeThreadManager workers) events →
      ∀ future, SameMemory manager (runFrom ThreadManager.step manager future)) := by
  intro manager
  have hinit := inv_new workers
  refine ⟨⟨?_, ?_⟩, ?_⟩
  · rintro ⟨future, hfuture⟩
    by_contra hfails
    have hstuck := hinit.stuck_of_fails hfails
    rw [(hstuck.run future).1] at hfuture
    exact hstuck.1 hfuture
  · intro halong
    have hheld : Held manager := by
      refine halong.invariant (I := Held) (fun _ _ h hpass => h.step hpass) ?_
      intro thread hmutex
      cases hmutex
    obtain ⟨entries, h⟩ := hinit.run events
    exact hheld.unlocks h ((bounded_new workers).run events)
  · intro hfails future
    exact ((hinit.stuck_of_fails hfails).run future).2

end SimpleServer.Ws
