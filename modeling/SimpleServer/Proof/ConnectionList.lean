import SimpleServer.Ws.ThreadManager

/-!
# The list of the connections

Only the thread that has locked the mutex is inside of the list, so what it knows of the list stays
true. A connection is in the list from its insertion to its removal by its own listener.

* `Inv`: the list in memory, what is allocated, and where the threads are.
* `Inv.edits`: what a thread that is inside may do; `Inv.insert`, `Inv.remove`, `Inv.create`.
* `Inv.step`: one event, with what it does to the list.
* `connectionList_run`: **every run.**
-/

namespace SimpleServer.Ws

open Lib LinkedList

/-- A node has a connection and the next node. -/
def nodeView : View Address ConnectionNode Address where
  value := ConnectionNode.connection
  next := ConnectionNode.next

/-- Nodes with their connections, in the order of the list. -/
abbrev Entries := List (Address × Address)

def Entries.nodes (entries : Entries) : List Address := entries.map Prod.fst

def Entries.connections (entries : Entries) : List Address := entries.map Prod.snd

/-! ## Places -/

/-- The mutex is locked here. -/
def Place.locked : Place → Bool
  | .addMalloc | .addWalk .. | .addArgument _ | .addCreate _ | .addDetach _ | .addUnlock _
  | .removeWalk .. | .removeUnlock _ => true
  | _ => false

/-- The connection of a listener that has not removed it. -/
def Place.owner : Place → Option Address
  | .listening connection | .removeLock connection | .removeWalk connection _ _ => some connection
  | _ => none

/-- A connection that is not in the list yet. -/
def Place.hand : Place → Option Address
  | .addWalk connection _ _ => some connection
  | _ => none

/-- What the removal has found. -/
def Place.removed : Place → Option Bool
  | .removeUnlock removed => some removed
  | .ended removed => removed
  | _ => none

/-- A place in the list: the last node before it and the first one behind it. -/
def At (memory : Address → Option ConnectionNode) (entries : Entries)
    (previous current : Option Address) (before behind : Entries) : Prop :=
  entries = before ++ behind ∧ previous = before.nodes.getLast? ∧
    Segment nodeView memory current behind none

variable {manager manager' : ThreadManager} {entries entries' : Entries} {thread : ℕ}
  {place place' : Place}

/-- What the thread inside of the functions knows. -/
def Knows (manager : ThreadManager) (entries : Entries) : Place → Prop
  | .addWalk connection currentNode nextNode =>
    manager.connections connection = true ∧ connection ∉ entries.connections ∧
      ∃ before behind, At manager.nodes entries currentNode nextNode before behind
  | .addArgument connection | .addCreate connection =>
    connection ∈ entries.connections ∧
      ∀ other place, manager.threads other = some place → place.owner ≠ some connection
  | .addDetach connection => connection ∈ entries.connections
  | .removeWalk connection currentNode previousNode =>
    ∃ before behind, At manager.nodes entries previousNode currentNode before behind ∧
      connection ∉ before.connections
  | _ => True

/-- The list in memory, what is allocated, and where the threads are. -/
structure Inv (manager : ThreadManager) (entries : Entries) : Prop where
  fault : manager.fault = false
  list : Segment nodeView manager.nodes manager.head entries none
  nodes_nodup : entries.nodes.Nodup
  nodes : ∀ address, (manager.nodes address).isSome → address ∈ entries.nodes
  connections_nodup : entries.connections.Nodup
  live : ∀ connection ∈ entries.connections, manager.connections connection = true
  listed : ∀ connection, manager.connections connection = true →
    connection ∈ entries.connections ∨
      ∃ thread place, manager.threads thread = some place ∧ place.hand = some connection
  locked : ∀ thread place, manager.threads thread = some place → place.locked = true →
    manager.mutex = some thread ∧ Knows manager entries place
  owned : ∀ thread place connection, manager.threads thread = some place →
    place.owner = some connection → connection ∈ entries.connections
  owner : ∀ thread other place place' connection, manager.threads thread = some place →
    manager.threads other = some place' → place.owner = some connection →
    place'.owner = some connection → thread = other
  removed : ∀ thread place removed, manager.threads thread = some place →
    place.removed = some removed → removed = true

theorem inv_new (workers : ℕ) : Inv (initializeThreadManager workers) [] := by
  have hidle : ∀ thread place, (initializeThreadManager workers).threads thread = some place →
      place = .idle := by
    intro thread place h
    have hthread : (if thread < workers then some Place.idle else none) = some place := h
    split_ifs at hthread with hworker
    exact (Option.some.inj hthread).symm
  refine { fault := rfl, list := rfl, nodes_nodup := List.nodup_nil, nodes := ?_,
           connections_nodup := List.nodup_nil, live := ?_, listed := ?_, locked := ?_, owned := ?_,
           owner := ?_, removed := ?_ }
  · intro address h
    cases h
  · intro connection h
    cases h
  · intro connection h
    cases h
  · intro thread place h hlocked
    rw [hidle thread place h] at hlocked
    cases hlocked
  · intro thread place connection h howner
    rw [hidle thread place h] at howner
    cases howner
  · intro thread other place place' connection h _ howner
    rw [hidle thread place h] at howner
    cases howner
  · intro thread place removed h hremoved
    rw [hidle thread place h] at hremoved
    cases hremoved

/-! ## Steps that leave memory alone -/

@[simp] theorem goTo_threads_self : (manager.goTo thread place).threads thread = some place :=
  Function.update_self ..

/-- Another thread stays where it is. -/
theorem threads_of_ne {other : ℕ}
    (hthreads : manager'.threads = Function.update manager.threads thread (some place'))
    (hne : other ≠ thread) : manager'.threads other = manager.threads other := by
  rw [hthreads, Function.update_of_ne hne]

theorem threads_self
    (hthreads : manager'.threads = Function.update manager.threads thread (some place')) :
    manager'.threads thread = some place' := by
  rw [hthreads, Function.update_self]

/-- What a thread knows, another one does not change by going on. -/
theorem Knows.congr (h : Knows manager entries place) (hnodes : manager'.nodes = manager.nodes)
    (hconnections : manager'.connections = manager.connections)
    (howner : ∀ connection other place', manager'.threads other = some place' →
      place'.owner = some connection → ∃ other' place, manager.threads other' = some place ∧
        place.owner = some connection) :
    Knows manager' entries place := by
  have hfree : ∀ connection, (∀ other place, manager.threads other = some place →
      place.owner ≠ some connection) → ∀ other place, manager'.threads other = some place →
      place.owner ≠ some connection := by
    intro connection hnone other place hplace howned
    obtain ⟨other', place', hplace', howned'⟩ := howner connection other place hplace howned
    exact hnone other' place' hplace' howned'
  cases place with
  | addWalk connection currentNode nextNode =>
    obtain ⟨hlive, hnew, before, behind, hat⟩ := h
    refine ⟨by rw [hconnections]; exact hlive, hnew, before, behind, hat.1, hat.2.1, ?_⟩
    rw [hnodes]
    exact hat.2.2
  | addArgument connection => exact ⟨h.1, hfree connection h.2⟩
  | addCreate connection => exact ⟨h.1, hfree connection h.2⟩
  | addDetach connection => exact h
  | removeWalk connection currentNode previousNode =>
    obtain ⟨before, behind, hat, hnew⟩ := h
    refine ⟨before, behind, ⟨hat.1, hat.2.1, ?_⟩, hnew⟩
    rw [hnodes]
    exact hat.2.2
  | _ => trivial

/-- What a thread is allowed to do that changes no memory: it takes no connection and drops
none. -/
structure Moves (manager manager' : ThreadManager) (thread : ℕ) (place place' : Place) : Prop where
  fault : manager'.fault = manager.fault
  head : manager'.head = manager.head
  nodes : manager'.nodes = manager.nodes
  connections : manager'.connections = manager.connections
  before : manager.threads thread = some place
  threads : manager'.threads = Function.update manager.threads thread (some place')
  owner : ∀ connection, place'.owner = some connection → place.owner = some connection
  hand : ∀ connection, place.hand = some connection → place'.hand = some connection
  removed : ∀ removed, place'.removed = some removed → removed = true

theorem Moves.owner_before (h : Moves manager manager' thread place place') (connection : Address)
    (other : ℕ) (q : Place) (hq : manager'.threads other = some q)
    (howned : q.owner = some connection) :
    ∃ q', manager.threads other = some q' ∧ q'.owner = some connection := by
  by_cases hother : other = thread
  · rw [hother, threads_self h.threads] at hq
    obtain rfl := Option.some.inj hq
    exact ⟨place, by rw [hother, h.before], h.owner connection howned⟩
  · rw [threads_of_ne h.threads hother] at hq
    exact ⟨q, hq, howned⟩

theorem Inv.moves (h : Inv manager entries) (hmoves : Moves manager manager' thread place place')
    (hlocked : place'.locked = true →
      manager'.mutex = some thread ∧ Knows manager' entries place')
    (hothers : ∀ other q, other ≠ thread → manager.threads other = some q → q.locked = true →
      manager'.mutex = some other) :
    Inv manager' entries := by
  have howner := hmoves.owner_before
  refine { fault := by rw [hmoves.fault, h.fault], list := ?_, nodes_nodup := h.nodes_nodup,
           nodes := ?_, connections_nodup := h.connections_nodup, live := ?_, listed := ?_,
           locked := ?_, owned := ?_, owner := ?_, removed := ?_ }
  · rw [hmoves.nodes, hmoves.head]
    exact h.list
  · rw [hmoves.nodes]
    exact h.nodes
  · rw [hmoves.connections]
    exact h.live
  · intro connection hlive
    rw [hmoves.connections] at hlive
    rcases h.listed connection hlive with hin | ⟨other, q, hq, hhand⟩
    · exact .inl hin
    · by_cases hother : other = thread
      · rw [hother, hmoves.before] at hq
        obtain rfl := Option.some.inj hq
        exact .inr ⟨thread, place', threads_self hmoves.threads, hmoves.hand connection hhand⟩
      · exact .inr ⟨other, q, by rw [threads_of_ne hmoves.threads hother, hq], hhand⟩
  · intro other q hq hqlocked
    by_cases hother : other = thread
    · rw [hother, threads_self hmoves.threads] at hq
      obtain rfl := Option.some.inj hq
      rw [hother]
      exact hlocked hqlocked
    · rw [threads_of_ne hmoves.threads hother] at hq
      refine ⟨hothers other q hother hq hqlocked, ?_⟩
      refine (h.locked other q hq hqlocked).2.congr hmoves.nodes hmoves.connections ?_
      intro connection other' q' hq' howned
      obtain ⟨q'', hq'', howned'⟩ := howner connection other' q' hq' howned
      exact ⟨other', q'', hq'', howned'⟩
  · intro other q connection hq howned
    obtain ⟨q', hq', howned'⟩ := howner connection other q hq howned
    exact h.owned other q' connection hq' howned'
  · intro other other' q q' connection hq hq' howned howned'
    obtain ⟨r, hr, hrowned⟩ := howner connection other q hq howned
    obtain ⟨r', hr', hrowned'⟩ := howner connection other' q' hq' howned'
    exact h.owner other other' r r' connection hr hr' hrowned hrowned'
  · intro other q removed hq hremoved
    by_cases hother : other = thread
    · rw [hother, threads_self hmoves.threads] at hq
      obtain rfl := Option.some.inj hq
      exact hmoves.removed removed hremoved
    · rw [threads_of_ne hmoves.threads hother] at hq
      exact h.removed other q removed hq hremoved

/-- A thread goes to another place. -/
theorem Inv.goTo (h : Inv manager entries) (ht : manager.threads thread = some place)
    (howner : ∀ connection, place'.owner = some connection → place.owner = some connection)
    (hhand : ∀ connection, place.hand = some connection → place'.hand = some connection)
    (hremoved : ∀ removed, place'.removed = some removed → removed = true)
    (hlocked : place'.locked = true → place.locked = true)
    (hknows : place'.locked = true → Knows manager entries place') :
    Inv (manager.goTo thread place') entries := by
  have hmoves : Moves manager (manager.goTo thread place') thread place place' :=
    { fault := rfl, head := rfl, nodes := rfl, connections := rfl, before := ht, threads := rfl,
      owner := howner, hand := hhand, removed := hremoved }
  refine h.moves hmoves (fun hlock => ?_) fun other q _ hq hqlocked =>
    (h.locked other q hq hqlocked).1
  refine ⟨(h.locked thread place ht (hlocked hlock)).1, ?_⟩
  refine (hknows hlock).congr rfl rfl ?_
  intro connection other q hq howned
  obtain ⟨q', hq', howned'⟩ := hmoves.owner_before connection other q hq howned
  exact ⟨other, q', hq', howned'⟩

/-- **Locking.** -/
theorem Inv.lock (h : Inv manager entries) (ht : manager.threads thread = some place)
    (hplace : place.locked = false ∧ place.hand = none)
    (howner : ∀ connection, place'.owner = some connection → place.owner = some connection)
    (hremoved : ∀ removed, place'.removed = some removed → removed = true)
    (hknows : Knows manager entries place') :
    Inv (manager.lock thread place') entries := by
  unfold ThreadManager.lock
  cases hmutex : manager.mutex with
  | some holder => exact h
  | none =>
    have hmoves : Moves manager { manager.goTo thread place' with mutex := some thread } thread
        place place' :=
      { fault := rfl, head := rfl, nodes := rfl, connections := rfl, before := ht, threads := rfl,
        owner := howner, removed := hremoved
        hand := fun connection hhand => by rw [hplace.2] at hhand; cases hhand }
    refine h.moves hmoves (fun _ => ⟨rfl, ?_⟩) fun other q _ hq hqlocked => ?_
    · refine hknows.congr rfl rfl ?_
      intro connection other q hq howned
      obtain ⟨q', hq', howned'⟩ := hmoves.owner_before connection other q hq howned
      exact ⟨other, q', hq', howned'⟩
    · have hholder := (h.locked other q hq hqlocked).1
      rw [hmutex] at hholder
      cases hholder

/-- **Unlocking.** -/
theorem Inv.unlock (h : Inv manager entries) (ht : manager.threads thread = some place)
    (hplace : place.locked = true ∧ place.hand = none) (hplace' : place'.locked = false)
    (howner : place'.owner = none)
    (hremoved : ∀ removed, place'.removed = some removed → removed = true) :
    Inv (manager.unlock thread place') entries := by
  have hmutex := (h.locked thread place ht hplace.1).1
  rw [ThreadManager.unlock, if_pos hmutex]
  have hmoves : Moves manager { manager.goTo thread place' with mutex := none } thread place
      place' :=
    { fault := rfl, head := rfl, nodes := rfl, connections := rfl, before := ht, threads := rfl,
      removed := hremoved
      owner := fun connection howned => by rw [howner] at howned; cases howned
      hand := fun connection hhand => by rw [hplace.2] at hhand; cases hhand }
  refine h.moves hmoves (fun hlocked => ?_) fun other q hne hq hqlocked => ?_
  · rw [hplace'] at hlocked
    cases hlocked
  · have hholder := (h.locked other q hq hqlocked).1
    rw [hmutex] at hholder
    exact absurd (Option.some.inj hholder).symm hne

/-! ## Steps that change memory -/

/-- What the thread inside of the functions is allowed to do to the list and to memory. -/
structure Edits (manager manager' : ThreadManager) (entries entries' : Entries) (thread : ℕ)
    (place place' : Place) : Prop where
  fault : manager'.fault = false
  mutex : manager'.mutex = manager.mutex
  before : manager.threads thread = some place
  inside : place.locked = true
  threads : manager'.threads = Function.update manager.threads thread (some place')
  list : Segment nodeView manager'.nodes manager'.head entries' none
  nodes_nodup : entries'.nodes.Nodup
  nodes : ∀ address, (manager'.nodes address).isSome → address ∈ entries'.nodes
  connections_nodup : entries'.connections.Nodup
  live : ∀ connection ∈ entries'.connections, manager'.connections connection = true
  listed : ∀ connection, manager'.connections connection = true →
    connection ∈ entries'.connections ∨ place'.hand = some connection
  knows : place'.locked = true → Knows manager' entries' place'
  kept : ∀ other q connection, other ≠ thread → manager.threads other = some q →
    q.owner = some connection → connection ∈ entries'.connections
  owner : place'.owner = none
  removed : ∀ removed, place'.removed = some removed → removed = true

theorem Inv.edits (h : Inv manager entries) (thread : ℕ) (place' : Place)
    (hedits : Edits manager manager' entries entries' thread place place') :
    Inv manager' entries' := by
  have hself := threads_self hedits.threads
  have hother : ∀ {other}, other ≠ thread → manager'.threads other = manager.threads other :=
    fun hne => threads_of_ne hedits.threads hne
  have howner : ∀ {other q connection}, manager'.threads other = some q →
      q.owner = some connection → other ≠ thread ∧ manager.threads other = some q := by
    intro other q connection hq howned
    have hne : other ≠ thread := by
      intro heq
      rw [heq, hself] at hq
      rw [← Option.some.inj hq, hedits.owner] at howned
      cases howned
    exact ⟨hne, by rw [← hother hne, hq]⟩
  refine { fault := hedits.fault, list := hedits.list, nodes_nodup := hedits.nodes_nodup,
           nodes := hedits.nodes, connections_nodup := hedits.connections_nodup,
           live := hedits.live, listed := ?_, locked := ?_, owned := ?_, owner := ?_,
           removed := ?_ }
  · intro connection hlive
    rcases hedits.listed connection hlive with hin | hhand
    · exact .inl hin
    · exact .inr ⟨thread, place', hself, hhand⟩
  · intro other q hq hqlocked
    by_cases heq : other = thread
    · rw [heq, hself] at hq
      obtain rfl := Option.some.inj hq
      rw [heq, hedits.mutex]
      exact ⟨(h.locked thread place hedits.before hedits.inside).1, hedits.knows hqlocked⟩
    · rw [hother heq] at hq
      have hholder := (h.locked other q hq hqlocked).1
      rw [(h.locked thread place hedits.before hedits.inside).1] at hholder
      exact absurd (Option.some.inj hholder).symm heq
  · intro other q connection hq howned
    obtain ⟨hne, hq'⟩ := howner hq howned
    exact hedits.kept other q connection hne hq' howned
  · intro other other' q q' connection hq hq' howned howned'
    exact h.owner other other' q q' connection (howner hq howned).2 (howner hq' howned').2 howned
      howned'
  · intro other q removed hq hremoved
    by_cases heq : other = thread
    · rw [heq, hself] at hq
      obtain rfl := Option.some.inj hq
      exact hedits.removed removed hremoved
    · rw [hother heq] at hq
      exact h.removed other q removed hq hremoved

/-- A connection that is live and not in the list is in the hand of the thread inside. -/
theorem Inv.listed_hand (h : Inv manager entries) (ht : manager.threads thread = some place)
    (hlocked : place.locked = true) {connection : Address}
    (hlive : manager.connections connection = true) :
    connection ∈ entries.connections ∨ place.hand = some connection := by
  rcases h.listed connection hlive with hin | ⟨other, q, hq, hhand⟩
  · exact .inl hin
  · have hqlocked : q.locked = true := by
      cases q with
      | addWalk => rfl
      | _ => cases hhand
    have hholder := (h.locked other q hq hqlocked).1
    rw [(h.locked thread place ht hlocked).1] at hholder
    rw [← Option.some.inj hholder, ht] at hq
    rw [Option.some.inj hq]
    exact .inr hhand

/-- **A new connection.** -/
theorem Inv.allocate (h : Inv manager entries) (ht : manager.threads thread = some .addMalloc)
    {connection : Address} (hfree : manager.connections connection = false) :
    Inv { manager.goTo thread (.addWalk connection none manager.head) with
          connections := Function.update manager.connections connection true } entries := by
  have hnew : connection ∉ entries.connections := by
    intro hin
    rw [h.live connection hin] at hfree
    cases hfree
  have hne : ∀ {other}, other ∈ entries.connections → other ≠ connection := by
    intro other hin heq
    exact hnew (heq ▸ hin)
  refine h.edits thread (.addWalk connection none manager.head)
    { fault := h.fault, mutex := rfl, before := ht, inside := rfl, threads := rfl, list := h.list,
      nodes_nodup := h.nodes_nodup, nodes := h.nodes, connections_nodup := h.connections_nodup,
      live := ?_, listed := ?_, knows := ?_, kept := ?_, owner := rfl, removed := ?_ }
  · intro other hin
    exact (Function.update_of_ne (hne hin) ..).trans (h.live other hin)
  · intro other hlive
    by_cases heq : other = connection
    · exact .inr (congrArg some heq.symm)
    · have hbefore : manager.connections other = true :=
        (Function.update_of_ne heq ..).symm.trans hlive
      rcases h.listed_hand ht rfl hbefore with hin | hhand
      · exact .inl hin
      · cases hhand
  · intro _
    exact ⟨Function.update_self .., hnew, [], entries, rfl, rfl, h.list⟩
  · intro other q owned _ hq howned
    exact h.owned other q owned hq howned
  · intro removed hremoved
    cases hremoved

/-- A connection that does not get a node is freed. -/
theorem Inv.discard (h : Inv manager entries) {connection : Address}
    {currentNode nextNode : Option Address}
    (ht : manager.threads thread = some (.addWalk connection currentNode nextNode)) :
    Inv ((manager.freeConnection connection).goTo thread (.addReturn none)) entries := by
  obtain ⟨-, hlive, hnew, -⟩ := h.locked thread _ ht rfl
  have hne : ∀ {other}, other ∈ entries.connections → other ≠ connection := by
    intro other hin heq
    exact hnew (heq ▸ hin)
  have hfree : manager.freeConnection connection =
      { manager with connections := Function.update manager.connections connection false } :=
    if_pos hlive
  rw [hfree]
  refine h.edits thread (.addReturn none)
    { fault := h.fault, mutex := rfl, before := ht, inside := rfl, threads := rfl, list := h.list,
      nodes_nodup := h.nodes_nodup, nodes := h.nodes, connections_nodup := h.connections_nodup,
      live := ?_, listed := ?_, knows := ?_, kept := ?_, owner := rfl, removed := ?_ }
  · intro other hin
    exact (Function.update_of_ne (hne hin) ..).trans (h.live other hin)
  · intro other hlive'
    have hother : other ≠ connection := by
      intro heq
      rw [heq] at hlive'
      have hdead : (false : Bool) = true := (Function.update_self ..).symm.trans hlive'
      cases hdead
    have hbefore : manager.connections other = true :=
      (Function.update_of_ne hother ..).symm.trans hlive'
    rcases h.listed_hand ht rfl hbefore with hin | hhand
    · exact .inl hin
    · exact absurd (Option.some.inj hhand).symm hother
  · intro hlocked
    cases hlocked
  · intro other q owned _ hq howned
    exact h.owned other q owned hq howned
  · intro removed hremoved
    cases hremoved

/-- The node behind the last one of a list: what it does to memory. -/
theorem setNext_insert (connection : Address) {currentNode : Option Address} {newNode : Address}
    (hlist : Segment nodeView manager.nodes manager.head entries none)
    (hnodup : entries.nodes.Nodup) (hcurrent : currentNode = entries.nodes.getLast?)
    (hnew : newNode ∉ entries.nodes) :
    ∃ head nodes, (ThreadManager.setNext
        { manager with
          nodes := Function.update manager.nodes newNode (some ⟨connection, none⟩) }
        currentNode (some newNode)) = { manager with head := head, nodes := nodes } ∧
      Segment nodeView nodes head (entries ++ [(newNode, connection)]) none ∧
      ∀ address, (nodes address).isSome →
        (manager.nodes address).isSome ∨ address = newNode := by
  cases hlast : entries.nodes.getLast? with
  | none =>
    have hempty : entries = [] := eq_nil_of_getLast? hlast
    rw [hcurrent, hlast, hempty]
    refine ⟨some newNode, Function.update manager.nodes newNode (some ⟨connection, none⟩), rfl,
      ⟨rfl, ⟨connection, none⟩, Function.update_self .., rfl, rfl⟩, ?_⟩
    intro address hsome
    by_cases heq : address = newNode
    · exact .inr heq
    · rw [Function.update_of_ne heq] at hsome
      exact .inl hsome
  | some last =>
    obtain ⟨before, other, rfl⟩ := exists_append_of_getLast? hlast
    obtain ⟨node, hnode, hvalue⟩ :=
      hlist.mem (List.mem_append_right before (List.mem_singleton.2 rfl))
    have hne : last ≠ newNode := by
      intro heq
      refine hnew ?_
      rw [← heq]
      exact List.mem_of_getLast? hlast
    have hlast' : last ∉ before.map Prod.fst := by
      have hnodup' := hnodup
      rw [Entries.nodes, List.map_append, List.nodup_append] at hnodup'
      intro hin
      exact hnodup'.2.2 last hin last (List.mem_singleton.2 rfl) rfl
    have hnode' :
        Function.update manager.nodes newNode (some ⟨connection, none⟩) last = some node :=
      (Function.update_of_ne hne ..).trans hnode
    rw [hcurrent, hlast]
    refine ⟨manager.head, _, ?_, hlist.insertLast (b := ⟨connection, none⟩)
      (d := { node with next := some newNode }) hlast' hnew hvalue rfl rfl, ?_⟩
    · simp only [ThreadManager.setNext, hnode']
    · intro address hsome
      by_cases heq : address = last
      · rw [heq, hnode]
        exact .inl rfl
      · rw [Function.update_of_ne heq] at hsome
        by_cases heq' : address = newNode
        · exact .inr heq'
        · rw [Function.update_of_ne heq'] at hsome
          exact .inl hsome

/-- **Insertion** of a new node, at the end of the list. -/
theorem Inv.insert (h : Inv manager entries) {connection newNode : Address}
    {currentNode : Option Address}
    (ht : manager.threads thread = some (.addWalk connection currentNode none))
    (hfree : manager.nodes newNode = none) :
    Inv ((ThreadManager.setNext
        { manager with
          nodes := Function.update manager.nodes newNode (some ⟨connection, none⟩) }
        currentNode (some newNode)).goTo thread (.addArgument connection))
      (entries ++ [(newNode, connection)]) := by
  obtain ⟨-, hlive, hconnection, before, behind, hsplit, hcurrent, hend⟩ := h.locked thread _ ht rfl
  have hbehind : behind = [] := hend.nil_of_none
  rw [hbehind, List.append_nil] at hsplit
  rw [← hsplit] at hcurrent
  have hnew : newNode ∉ entries.nodes := by
    intro hin
    obtain ⟨cell, hcell, hfirst⟩ := List.mem_map.1 hin
    obtain ⟨node, hnode, -⟩ := h.list.mem hcell
    rw [hfirst, hfree] at hnode
    cases hnode
  obtain ⟨head, nodes, hset, hlist, hnodes⟩ :=
    setNext_insert connection h.list h.nodes_nodup hcurrent hnew
  rw [hset]
  have hconnections : Entries.connections (entries ++ [(newNode, connection)]) =
      entries.connections ++ [connection] := List.map_append
  refine h.edits thread (.addArgument connection)
    { fault := h.fault, mutex := rfl, before := ht, inside := rfl, threads := rfl, list := hlist,
      nodes_nodup := ?_, nodes := ?_, connections_nodup := ?_,
      live := ?_, listed := ?_, knows := ?_, kept := ?_, owner := rfl, removed := ?_ }
  · rw [Entries.nodes, List.map_append]
    exact List.nodup_append.2 ⟨h.nodes_nodup, List.nodup_singleton _, by
      intro address hin other hother heq
      have hsame : address = newNode := heq.trans (List.mem_singleton.1 hother)
      rw [hsame] at hin
      exact hnew hin⟩
  · intro address hsome
    rw [Entries.nodes, List.map_append]
    rcases hnodes address hsome with hbefore | rfl
    · exact List.mem_append_left _ (h.nodes address hbefore)
    · exact List.mem_append_right _ (List.mem_singleton.2 rfl)
  · rw [hconnections]
    exact List.nodup_append.2 ⟨h.connections_nodup, List.nodup_singleton _, by
      intro other hin other' hother' heq
      have hsame : other = connection := heq.trans (List.mem_singleton.1 hother')
      rw [hsame] at hin
      exact hconnection hin⟩
  · intro other hin
    rw [hconnections] at hin
    rcases List.mem_append.1 hin with hin | hin
    · exact h.live other hin
    · rw [List.mem_singleton.1 hin]
      exact hlive
  · intro other hlive'
    rw [hconnections]
    rcases h.listed_hand ht rfl hlive' with hin | hhand
    · exact .inl (List.mem_append_left _ hin)
    · exact .inl (List.mem_append_right _ (List.mem_singleton.2 (Option.some.inj hhand).symm))
  · intro _
    refine ⟨by rw [hconnections]; exact List.mem_append_right _ (List.mem_singleton.2 rfl), ?_⟩
    intro other q hq howned
    by_cases heq : other = thread
    · rw [heq, goTo_threads_self] at hq
      rw [← Option.some.inj hq] at howned
      cases howned
    · have hq' : manager.threads other = some q := (Function.update_of_ne heq ..).symm.trans hq
      exact hconnection (h.owned other q connection hq' howned)
  · intro other q owned _ hq howned
    rw [hconnections]
    exact List.mem_append_left _ (h.owned other q owned hq howned)
  · intro removed hremoved
    cases hremoved

/-- A node less: what it does to memory. -/
theorem setNext_unlink {before behind : Entries} {address connection : Address}
    {node : ConnectionNode} {previousNode : Option Address}
    (hlist : Segment nodeView manager.nodes manager.head
      (before ++ (address, connection) :: behind) none)
    (hnodup : Entries.nodes (before ++ (address, connection) :: behind) |>.Nodup)
    (hprevious : previousNode = before.nodes.getLast?) (hnode : manager.nodes address = some node) :
    ∃ head nodes, (manager.setNext previousNode node.next).freeNode address =
        { manager with head := head, nodes := nodes } ∧
      Segment nodeView nodes head (before ++ behind) none ∧
      ∀ other, (nodes other).isSome → (manager.nodes other).isSome ∧ other ≠ address := by
  cases hlast : before.nodes.getLast? with
  | none =>
    have hempty : before = [] := eq_nil_of_getLast? hlast
    rw [hempty, List.nil_append] at hlist hnodup
    have hfresh : address ∉ behind.map Prod.fst := (List.nodup_cons.1 hnodup).1
    rw [hprevious, hlast, hempty]
    refine ⟨node.next, Function.update manager.nodes address none, ?_,
      hlist.unlinkFirst hfresh hnode, ?_⟩
    · simp only [ThreadManager.setNext, ThreadManager.freeNode, hnode]
    · intro other hsome
      by_cases heq : other = address
      · rw [heq, Function.update_self] at hsome
        cases hsome
      · rw [Function.update_of_ne heq] at hsome
        exact ⟨hsome, heq⟩
  | some last =>
    obtain ⟨first, value, rfl⟩ := exists_append_of_getLast? hlast
    have hin : (last, value) ∈ first ++ [(last, value)] ++ (address, connection) :: behind :=
      List.mem_append_left _ (List.mem_append_right _ (List.mem_singleton.2 rfl))
    obtain ⟨previous, hprevious', hvalue⟩ := hlist.mem hin
    have hne : address ≠ last := by
      intro heq
      rw [Entries.nodes, List.map_append, List.nodup_append] at hnodup
      refine hnodup.2.2 last (List.mem_of_getLast? hlast) last ?_ rfl
      rw [← heq]
      exact List.mem_cons_self ..
    have hnode' : Function.update manager.nodes last (some { previous with next := node.next })
        address = some node := (Function.update_of_ne hne ..).trans hnode
    rw [hprevious, hlast]
    refine ⟨manager.head, _, ?_, hlist.unlink (d := { previous with next := node.next }) hnodup
      hnode hvalue rfl, ?_⟩
    · simp only [ThreadManager.setNext, hprevious', ThreadManager.freeNode, hnode']
    · intro other hsome
      by_cases heq : other = address
      · rw [heq, Function.update_self] at hsome
        cases hsome
      · refine ⟨?_, heq⟩
        rw [Function.update_of_ne heq] at hsome
        by_cases heq' : other = last
        · rw [heq', hprevious']
          rfl
        · rw [Function.update_of_ne heq'] at hsome
          exact hsome

/-- **Removal** of the connection that was found. -/
theorem Inv.remove (h : Inv manager entries) {connection currentNode : Address}
    {previousNode : Option Address} {node : ConnectionNode}
    (ht : manager.threads thread = some (.removeWalk connection (some currentNode) previousNode))
    (hnode : manager.nodes currentNode = some node) (hfound : node.connection = connection) :
    ∃ before behind, entries = before ++ (currentNode, connection) :: behind ∧
      Inv ((((manager.freeConnection connection).setNext previousNode node.next).freeNode
        currentNode).goTo thread (.removeUnlock true)) (before ++ behind) := by
  obtain ⟨-, before, behind, ⟨hsplit, hprevious, hbehind⟩, -⟩ := h.locked thread _ ht rfl
  obtain ⟨node', rest, hnode', hrest, -⟩ := hbehind.exists_of_start
  rw [hnode] at hnode'
  obtain rfl := Option.some.inj hnode'
  have hentries : entries = before ++ (currentNode, connection) :: rest := by
    rw [hsplit, hrest, ← hfound]
    rfl
  have hin : connection ∈ entries.connections :=
    h.owned thread _ connection ht rfl
  have hfree : manager.freeConnection connection =
      { manager with connections := Function.update manager.connections connection false } :=
    if_pos (h.live connection hin)
  refine ⟨before, rest, hentries, ?_⟩
  have hlist := h.list
  have hnodup := h.nodes_nodup
  have hconnections := h.connections_nodup
  rw [hentries] at hlist hnodup hconnections
  have hmem : ∀ {other}, other ≠ connection →
      (other ∈ entries.connections ↔ other ∈ Entries.connections (before ++ rest)) := by
    intro other hne
    rw [hentries]
    simp only [Entries.connections, List.map_append, List.map_cons, List.mem_append, List.mem_cons,
      hne, false_or]
  have hgone : connection ∉ Entries.connections (before ++ rest) := by
    intro hin'
    rw [Entries.connections, List.map_append, List.map_cons] at hconnections
    have hperm := (List.perm_middle.nodup_iff).1 hconnections
    rw [Entries.connections, List.map_append] at hin'
    exact (List.nodup_cons.1 hperm).1 hin'
  have hlist'' : Segment nodeView (manager.freeConnection connection).nodes
      (manager.freeConnection connection).head (before ++ (currentNode, connection) :: rest)
      none := by
    rw [hfree]
    exact hlist
  have hnode'' : (manager.freeConnection connection).nodes currentNode = some node := by
    rw [hfree]
    exact hnode
  obtain ⟨head, nodes, hset, hlist', hnodes⟩ := setNext_unlink hlist'' hnodup hprevious hnode''
  rw [hset, hfree]
  refine h.edits thread (.removeUnlock true)
    { fault := h.fault, mutex := rfl, before := ht, inside := rfl, threads := rfl, list := hlist',
      nodes_nodup := ?_, nodes := ?_, connections_nodup := ?_,
      live := ?_, listed := ?_, knows := ?_, kept := ?_, owner := rfl, removed := ?_ }
  · rw [Entries.nodes, List.map_append] at hnodup ⊢
    exact (List.nodup_cons.1 ((List.perm_middle.nodup_iff).1 hnodup)).2
  · intro other hsome
    obtain ⟨hbefore, hne⟩ := hnodes other hsome
    rw [hfree] at hbefore
    have hold := h.nodes other hbefore
    rw [hentries] at hold
    simp only [Entries.nodes, List.map_append, List.map_cons, List.mem_append, List.mem_cons, hne,
      false_or] at hold ⊢
    exact hold
  · rw [Entries.connections, List.map_append] at hconnections ⊢
    exact (List.nodup_cons.1 ((List.perm_middle.nodup_iff).1 hconnections)).2
  · intro other hin'
    have hne : other ≠ connection := fun heq => hgone (heq ▸ hin')
    exact (Function.update_of_ne hne ..).trans (h.live other ((hmem hne).2 hin'))
  · intro other hlive
    have hne : other ≠ connection := by
      intro heq
      rw [heq] at hlive
      have hdead : (false : Bool) = true := (Function.update_self ..).symm.trans hlive
      cases hdead
    have hlive' : manager.connections other = true :=
      (Function.update_of_ne hne ..).symm.trans hlive
    rcases h.listed_hand ht rfl hlive' with hin' | hhand
    · exact .inl ((hmem hne).1 hin')
    · cases hhand
  · intro _
    trivial
  · intro other q owned hother hq howned
    have hne : owned ≠ connection := by
      intro heq
      rw [heq] at howned
      exact hother (h.owner other thread q _ connection hq ht howned rfl)
    exact (hmem hne).1 (h.owned other q owned hq howned)
  · intro removed hremoved
    exact (Option.some.inj hremoved).symm

/-- **A new listener**, for the connection that was just inserted. -/
theorem Inv.create (h : Inv manager entries) {connection : Address} {listener : ℕ}
    (ht : manager.threads thread = some (.addCreate connection))
    (hfresh : manager.threads listener = none) :
    Inv ((manager.goTo listener (.listening connection)).goTo thread (.addDetach connection))
      entries := by
  obtain ⟨hmutex, hin, hnone⟩ := h.locked thread _ ht rfl
  have hne : thread ≠ listener := by
    intro heq
    rw [heq, hfresh] at ht
    cases ht
  have hplace : ∀ {other q}, ((manager.goTo listener (.listening connection)).goTo thread
      (.addDetach connection)).threads other = some q →
      (other = thread ∧ q = .addDetach connection) ∨
      (other = listener ∧ q = .listening connection) ∨
        (other ≠ thread ∧ manager.threads other = some q) := by
    intro other q hq
    by_cases hthread : other = thread
    · rw [hthread, goTo_threads_self] at hq
      exact .inl ⟨hthread, (Option.some.inj hq).symm⟩
    · have hq' : Function.update manager.threads listener (some (.listening connection)) other =
          some q := (Function.update_of_ne hthread ..).symm.trans hq
      by_cases hlistener : other = listener
      · rw [hlistener, Function.update_self] at hq'
        exact .inr (.inl ⟨hlistener, (Option.some.inj hq').symm⟩)
      · rw [Function.update_of_ne hlistener] at hq'
        exact .inr (.inr ⟨hthread, hq'⟩)
  have howner : ∀ {other q owned}, ((manager.goTo listener (.listening connection)).goTo thread
      (.addDetach connection)).threads other = some q → q.owner = some owned →
      (other = listener ∧ owned = connection) ∨
        (owned ≠ connection ∧ manager.threads other = some q) := by
    intro other q owned hq howned
    rcases hplace hq with ⟨-, rfl⟩ | ⟨hother, rfl⟩ | ⟨-, hq'⟩
    · cases howned
    · exact .inl ⟨hother, (Option.some.inj howned).symm⟩
    · refine .inr ⟨?_, hq'⟩
      intro heq
      rw [heq] at howned
      exact hnone other q hq' howned
  refine { fault := h.fault, list := h.list, nodes_nodup := h.nodes_nodup, nodes := h.nodes,
           connections_nodup := h.connections_nodup, live := h.live, listed := ?_, locked := ?_,
           owned := ?_, owner := ?_, removed := ?_ }
  · intro other hlive
    rcases h.listed_hand ht rfl hlive with hin' | hhand
    · exact .inl hin'
    · cases hhand
  · intro other q hq hlocked
    rcases hplace hq with ⟨rfl, rfl⟩ | ⟨-, rfl⟩ | ⟨hother, hq'⟩
    · exact ⟨hmutex, hin⟩
    · cases hlocked
    · have hholder := (h.locked other q hq' hlocked).1
      rw [hmutex] at hholder
      exact absurd (Option.some.inj hholder).symm hother
  · intro other q owned hq howned
    rcases howner hq howned with ⟨-, rfl⟩ | ⟨-, hq'⟩
    · exact hin
    · exact h.owned other q owned hq' howned
  · intro other other' q q' owned hq hq' howned howned'
    rcases howner hq howned with ⟨rfl, rfl⟩ | ⟨hnew, hold⟩
    · rcases howner hq' howned' with ⟨rfl, -⟩ | ⟨hnew', -⟩
      · rfl
      · exact absurd rfl hnew'
    · rcases howner hq' howned' with ⟨-, rfl⟩ | ⟨-, hold'⟩
      · exact absurd rfl hnew
      · exact h.owner other other' q q' owned hold hold' howned howned'
  · intro other q removed hq hremoved
    rcases hplace hq with ⟨-, rfl⟩ | ⟨-, rfl⟩ | ⟨-, hq'⟩
    · cases hremoved
    · cases hremoved
    · exact h.removed other q removed hq' hremoved

/-! ## Events -/

/-- What the step of a thread does to the list: nothing, its new connection at the end, or the
connection it owns less. -/
def Edited (place : Place) (entries entries' : Entries) : Prop :=
  entries' = entries ∨
    (∃ node connection, place.hand = some connection ∧
      entries' = entries ++ [(node, connection)]) ∨
    ∃ before node connection behind, place.owner = some connection ∧
      entries = before ++ (node, connection) :: behind ∧ entries' = before ++ behind

/-- The place behind a node that was looked at. -/
theorem At.next {memory : Address → Option ConnectionNode} {previous : Option Address}
    {current : Address} {before behind : Entries} {node : ConnectionNode}
    (h : At memory entries previous (some current) before behind)
    (hnode : memory current = some node) :
    ∃ rest, behind = (current, node.connection) :: rest ∧
      At memory entries (some current) node.next (before ++ [(current, node.connection)]) rest := by
  obtain ⟨hsplit, hprevious, hbehind⟩ := h
  obtain ⟨node', rest, hnode', hrest, hnext⟩ := hbehind.exists_of_start
  rw [hnode] at hnode'
  obtain rfl := Option.some.inj hnode'
  refine ⟨rest, hrest, ?_, ?_, hnext⟩
  · rw [hsplit, hrest, List.append_assoc]
    rfl
  · rw [Entries.nodes, List.map_append, List.map_singleton, List.getLast?_concat]

/-- A node that is looked at is there. -/
theorem At.exists_node {memory : Address → Option ConnectionNode} {previous : Option Address}
    {current : Address} {before behind : Entries}
    (h : At memory entries previous (some current) before behind) :
    ∃ node, memory current = some node := by
  obtain ⟨node, -, hnode, -⟩ := h.2.2.exists_of_start
  exact ⟨node, hnode⟩

/-- **The step of an insertion.** -/
theorem Inv.addStep (h : Inv manager entries) (ht : manager.threads thread = some place)
    (found : Option ℕ) :
    ∃ entries', Inv (manager.addStep thread found place) entries' ∧
      Edited place entries entries' := by
  have hreturn : ∀ result, place.hand = none →
      Inv (manager.goTo thread (.addReturn result)) entries := by
    intro result hhand
    refine h.goTo ht ?_ ?_ ?_ ?_ ?_
    · intro connection howned
      cases howned
    · intro connection hconnection
      rw [hhand] at hconnection
      cases hconnection
    · intro removed hremoved
      cases hremoved
    · intro hlocked
      cases hlocked
    · intro hlocked
      cases hlocked
  have hinside : ∀ {place'}, place.locked = true → place.hand = none → place'.owner = none →
      place'.removed = none → Knows manager entries place' →
      Inv (manager.goTo thread place') entries := by
    intro place' hlocked hhand howner hremoved hknows
    refine h.goTo ht ?_ ?_ ?_ (fun _ => hlocked) (fun _ => hknows)
    · intro connection howned
      rw [howner] at howned
      cases howned
    · intro connection hconnection
      rw [hhand] at hconnection
      cases hconnection
    · intro removed hremoved'
      rw [hremoved] at hremoved'
      cases hremoved'
  have hsame : ∀ {manager'}, Inv manager' entries → ∃ entries', Inv manager' entries' ∧
      Edited place entries entries' := fun h => ⟨entries, h, .inl rfl⟩
  cases place with
  | addLock =>
    refine hsame (h.lock ht ⟨rfl, rfl⟩ ?_ ?_ trivial)
    · intro connection howned
      cases howned
    · intro removed hremoved
      cases hremoved
  | addMalloc =>
    cases found with
    | none => exact hsame (hreturn none rfl)
    | some connection =>
      simp only [ThreadManager.addStep]
      split_ifs with hlive
      · exact hsame h
      · exact hsame (h.allocate ht (Bool.not_eq_true _ ▸ hlive))
  | addWalk connection currentNode nextNode =>
    obtain ⟨-, hlive, hnew, before, behind, hat⟩ := h.locked thread _ ht rfl
    cases nextNode with
    | none =>
      cases found with
      | none => exact hsame (h.discard ht)
      | some newNode =>
        simp only [ThreadManager.addStep]
        split_ifs with hused
        · exact hsame h
        · refine ⟨_, h.insert ht ?_, .inr (.inl ⟨newNode, connection, rfl, rfl⟩)⟩
          exact Option.not_isSome_iff_eq_none.1 hused
    | some nextNode =>
      obtain ⟨node, hnode⟩ := hat.exists_node
      obtain ⟨rest, -, hat'⟩ := hat.next hnode
      simp only [ThreadManager.addStep, hnode]
      refine hsame (h.goTo ht ?_ (fun _ hhand => hhand) ?_ (fun _ => rfl) fun _ => ?_)
      · intro other howned
        cases howned
      · intro removed hremoved
        cases hremoved
      · exact ⟨hlive, hnew, _, rest, hat'⟩
  | addArgument connection =>
    cases found with
    | none => exact hsame (hreturn none rfl)
    | some argument =>
      exact hsame (hinside rfl rfl rfl rfl (h.locked thread _ ht rfl).2)
  | addCreate connection =>
    cases found with
    | none => exact hsame (hreturn none rfl)
    | some listener =>
      simp only [ThreadManager.addStep]
      split_ifs with hused
      · exact hsame h
      · exact hsame (h.create ht (Option.not_isSome_iff_eq_none.1 hused))
  | addDetach connection =>
    have hlive := h.live connection (h.locked thread _ ht rfl).2
    simp only [ThreadManager.addStep, hlive, Bool.not_true, Bool.false_eq_true, if_false]
    cases found with
    | none => exact hsame (hreturn none rfl)
    | some _ => exact hsame (hinside rfl rfl rfl rfl trivial)
  | addUnlock connection =>
    refine hsame (h.unlock ht ⟨rfl, rfl⟩ rfl rfl ?_)
    intro removed hremoved
    cases hremoved
  | _ => exact hsame h

/-- **The step of a removal.** -/
theorem Inv.removeStep (h : Inv manager entries) (ht : manager.threads thread = some place) :
    ∃ entries', Inv (manager.removeStep thread place) entries' ∧
      Edited place entries entries' := by
  have hsame : ∀ {manager'}, Inv manager' entries → ∃ entries', Inv manager' entries' ∧
      Edited place entries entries' := fun h => ⟨entries, h, .inl rfl⟩
  cases place with
  | removeLock connection =>
    refine hsame (h.lock ht ⟨rfl, rfl⟩ (fun _ howned => howned) ?_ ?_)
    · intro removed hremoved
      cases hremoved
    · exact ⟨[], entries, ⟨rfl, rfl, h.list⟩, List.not_mem_nil⟩
  | removeWalk connection currentNode previousNode =>
    obtain ⟨-, before, behind, hat, hbefore⟩ := h.locked thread _ ht rfl
    cases currentNode with
    | none =>
      -- The whole list is behind, and the connection is in it.
      have hbehind : behind = [] := hat.2.2.nil_of_none
      have hsplit := hat.1
      rw [hbehind, List.append_nil] at hsplit
      have hin := h.owned thread _ connection ht rfl
      rw [hsplit] at hin
      exact absurd hin hbefore
    | some currentNode =>
      obtain ⟨node, hnode⟩ := hat.exists_node
      obtain ⟨rest, hrest, hat'⟩ := hat.next hnode
      simp only [ThreadManager.removeStep, hnode]
      split_ifs with hfound
      · obtain ⟨first, last, hentries, hinv⟩ := h.remove ht hnode hfound
        exact ⟨_, hinv, .inr (.inr ⟨first, _, _, last, rfl, hentries, rfl⟩)⟩
      · refine hsame (h.goTo ht (fun _ howned => howned) ?_ ?_ (fun _ => rfl) fun _ => ?_)
        · intro other hhand
          cases hhand
        · intro removed hremoved
          cases hremoved
        · refine ⟨_, rest, hat', ?_⟩
          rw [Entries.connections, List.map_append, List.mem_append, List.map_singleton,
            List.mem_singleton]
          rintro (hin | heq)
          · exact hbefore hin
          · exact hfound heq.symm
  | removeUnlock removed =>
    refine hsame (h.unlock ht ⟨rfl, rfl⟩ rfl rfl ?_)
    intro removed' hremoved
    exact h.removed thread _ removed' ht hremoved
  | _ => exact hsame h

/-- A step that goes to a place outside, and gives up what the thread had. -/
theorem Inv.goToOutside (h : Inv manager entries) (ht : manager.threads thread = some place)
    (hhand : place.hand = none) (hlocked : place'.locked = false) (howner : place'.owner = none)
    (hremoved : place'.removed = none) : Inv (manager.goTo thread place') entries := by
  refine h.goTo ht ?_ ?_ ?_ ?_ ?_
  · intro connection howned
    rw [howner] at howned
    cases howned
  · intro connection hconnection
    rw [hhand] at hconnection
    cases hconnection
  · intro removed hremoved'
    rw [hremoved] at hremoved'
    cases hremoved'
  · intro hlocked'
    rw [hlocked] at hlocked'
    cases hlocked'
  · intro hlocked'
    rw [hlocked] at hlocked'
    cases hlocked'

/-- **One event.** -/
theorem Inv.step (h : Inv manager entries) (event : ThreadEvent) :
    ∃ entries', Inv (manager.step event) entries' ∧
      (entries' = entries ∨ ∃ thread found place, event = .step thread found ∧
        manager.threads thread = some place ∧ Edited place entries entries') := by
  have hsame : ∀ {manager' event}, Inv manager' entries → ∃ entries', Inv manager' entries' ∧
      (entries' = entries ∨ ∃ thread found place, event = ThreadEvent.step thread found ∧
        manager.threads thread = some place ∧ Edited place entries entries') :=
    fun h => ⟨entries, h, .inl rfl⟩
  cases event with
  | call thread =>
    cases ht : manager.threads thread with
    | none => simpa only [ThreadManager.step, ht] using hsame h
    | some place =>
      cases place with
      | idle =>
        simp only [ThreadManager.step, ht]
        exact hsame (h.goToOutside ht rfl rfl rfl rfl)
      | addReturn result =>
        simp only [ThreadManager.step, ht]
        exact hsame (h.goToOutside ht rfl rfl rfl rfl)
      | _ => simpa only [ThreadManager.step, ht] using hsame h
  | step thread found =>
    cases ht : manager.threads thread with
    | none => simpa only [ThreadManager.step, ht] using hsame h
    | some place =>
      cases place with
      | removeLock | removeWalk | removeUnlock =>
        simp only [ThreadManager.step, ht]
        obtain ⟨entries', h', hedited⟩ := h.removeStep ht
        exact ⟨entries', h', .inr ⟨thread, found, _, rfl, ht, hedited⟩⟩
      | _ =>
        simp only [ThreadManager.step, ht]
        obtain ⟨entries', h', hedited⟩ := h.addStep ht found
        exact ⟨entries', h', .inr ⟨thread, found, _, rfl, ht, hedited⟩⟩
  | receive thread =>
    cases ht : manager.threads thread with
    | none => simpa only [ThreadManager.step, ht] using hsame h
    | some place =>
      cases place with
      | listening connection =>
        have hlive := h.live connection (h.owned thread _ connection ht rfl)
        simp only [ThreadManager.step, ht, hlive, if_true]
        exact hsame h
      | _ => simpa only [ThreadManager.step, ht] using hsame h
  | close thread =>
    cases ht : manager.threads thread with
    | none => simpa only [ThreadManager.step, ht] using hsame h
    | some place =>
      cases place with
      | listening connection =>
        have hlive := h.live connection (h.owned thread _ connection ht rfl)
        simp only [ThreadManager.step, ht, hlive, if_true]
        refine hsame (h.goTo ht (fun _ howned => howned) ?_ ?_ (fun hlocked => hlocked) ?_)
        · intro other hhand
          cases hhand
        · intro removed hremoved
          cases hremoved
        · intro hlocked
          cases hlocked
      | _ => simpa only [ThreadManager.step, ht] using hsame h
  | leave thread =>
    cases ht : manager.threads thread with
    | none => simpa only [ThreadManager.step, ht] using hsame h
    | some place =>
      cases place with
      | listening connection =>
        simp only [ThreadManager.step, ht]
        exact hsame (h.goToOutside ht rfl rfl rfl rfl)
      | _ => simpa only [ThreadManager.step, ht] using hsame h

theorem Inv.run (h : Inv manager entries) (events : List ThreadEvent) :
    ∃ entries', Inv (runFrom ThreadManager.step manager events) entries' := by
  induction events generalizing manager entries with
  | nil => exact ⟨entries, h⟩
  | cons event events ih =>
    obtain ⟨entries', h', -⟩ := h.step event
    exact ih h'

/-- **The list of the connections, in every run.** Nothing is used that is not in memory, the nodes
in memory are those of the list, every listener has a connection of the list for itself, and finds
it at its end. A thread changes the list by its own connection only, and no two are inside. -/
theorem connectionList_run (workers : ℕ) (events : List ThreadEvent) :
    let manager := runFrom ThreadManager.step (initializeThreadManager workers) events
    ∃ entries : Entries, manager.fault = false ∧
      Segment nodeView manager.nodes manager.head entries none ∧
      entries.nodes.Nodup ∧ (∀ address, (manager.nodes address).isSome ↔ address ∈ entries.nodes) ∧
      entries.connections.Nodup ∧
      (∀ connection ∈ entries.connections, manager.connections connection = true) ∧
      (∀ thread connection, manager.threads thread = some (.listening connection) →
        connection ∈ entries.connections ∧
          ∀ other, manager.threads other = some (.listening connection) → other = thread) ∧
      (∀ thread, manager.threads thread ≠ some (.ended (some false))) ∧
      (∀ thread other place place', manager.threads thread = some place →
        manager.threads other = some place' → place.locked = true → place'.locked = true →
        thread = other) ∧
      ∀ event, ∃ entries',
        Segment nodeView (manager.step event).nodes (manager.step event).head entries' none ∧
        (entries' = entries ∨ ∃ thread found place, event = .step thread found ∧
          manager.threads thread = some place ∧ Edited place entries entries') := by
  intro manager
  obtain ⟨entries, h⟩ := (inv_new workers).run events
  refine ⟨entries, h.fault, h.list, h.nodes_nodup, ?_, h.connections_nodup, h.live, ?_, ?_, ?_, ?_⟩
  · intro address
    refine ⟨h.nodes address, fun hin => ?_⟩
    obtain ⟨cell, hcell, rfl⟩ := List.mem_map.1 hin
    obtain ⟨node, hnode, -⟩ := h.list.mem hcell
    exact Option.isSome_iff_exists.2 ⟨node, hnode⟩
  · intro thread connection ht
    refine ⟨h.owned thread _ connection ht rfl, fun other hother => ?_⟩
    exact h.owner other thread _ _ connection hother ht rfl rfl
  · intro thread ht
    have hremoved := h.removed thread _ false ht rfl
    cases hremoved
  · intro thread other place place' ht hother hlocked hlocked'
    have hholder := (h.locked thread place ht hlocked).1
    rw [(h.locked other place' hother hlocked').1] at hholder
    exact (Option.some.inj hholder).symm
  · intro event
    obtain ⟨entries', h', hedited⟩ := h.step event
    exact ⟨entries', h'.list, hedited⟩

end SimpleServer.Ws
