import SimpleServer.Lib.LinkedList
import SimpleServer.Lib.Run

/-!
# The connections of the WebSocket threads (`ws/thread_manager.c`)

Worker threads add connections, each with a listener of its own, and a listener removes its
connection at its end. The connections are in a linked list, which a mutex protects. An event is one
step of a thread between two accesses to what the threads share; `malloc`, `pthread_create` and
`pthread_detach` may fail. The mutex itself does not fail. `thread_manager_remove_all_connections`,
which the server calls without the lock while it shuts down, is no step of these runs.

An address stands for an object in memory while there is one. `fault` says that something was used
that is not there; it is not in the source.
-/

namespace SimpleServer.Ws

open Lib

/-- An address, or the number of a thread. -/
abbrev Address := ℕ

structure ConnectionNode where
  connection : Address
  next : Option Address
deriving DecidableEq

/-- Where a thread is. -/
inductive Place where
  /-- A worker, outside of the functions of the manager. -/
  | idle
  /-- `thread_manager_add_connection`: before the lock. -/
  | addLock
  /-- Before `malloc` of the connection. -/
  | addMalloc
  /-- At the head of the loop. -/
  | addWalk (connection : Address) (currentNode nextNode : Option Address)
  /-- Before `malloc` of the argument of the thread. -/
  | addArgument (connection : Address)
  | addCreate (connection : Address)
  | addDetach (connection : Address)
  | addUnlock (connection : Address)
  | addReturn (result : Option Address)
  /-- `ws_listener_function`. -/
  | listening (connection : Address)
  /-- `thread_manager_remove_connection`: before the lock. -/
  | removeLock (connection : Address)
  /-- At the head of the loop. -/
  | removeWalk (connection : Address) (currentNode previousNode : Option Address)
  | removeUnlock (removed : Bool)
  /-- The end of a listener, with what the removal returned, if there was one. -/
  | ended (removed : Option Bool)
deriving DecidableEq

structure ThreadManager where
  /-- The thread that has locked the mutex. -/
  mutex : Option ℕ
  head : Option Address
  nodes : Address → Option ConnectionNode
  /-- Where a `WebSocketConnection` is in memory. -/
  connections : Address → Bool
  threads : ℕ → Option Place
  fault : Bool

/-- `initialize_thread_manager`, with the worker threads. -/
def initializeThreadManager (workers : ℕ) : ThreadManager where
  mutex := none
  head := none
  nodes _ := none
  connections _ := false
  threads thread := if thread < workers then some .idle else none
  fault := false

inductive ThreadEvent where
  /-- A worker calls `thread_manager_add_connection`, or goes on after it. -/
  | call (thread : ℕ)
  /-- A step inside a function; what `malloc` or `pthread_create` finds, `none` for a failure. -/
  | step (thread : ℕ) (found : Option ℕ)
  /-- A listener uses its connection. -/
  | receive (thread : ℕ)
  /-- A listener closes its connection. -/
  | close (thread : ℕ)
  /-- A listener that ends without closing its connection. -/
  | leave (thread : ℕ)
deriving DecidableEq

namespace ThreadManager

variable (manager : ThreadManager)

def goTo (thread : ℕ) (place : Place) : ThreadManager :=
  { manager with threads := Function.update manager.threads thread (some place) }

def failed : ThreadManager := { manager with fault := true }

/-- `pthread_mutex_lock`; a thread that has to wait stays where it is. -/
def lock (thread : ℕ) (place : Place) : ThreadManager :=
  match manager.mutex with
  | none => { manager.goTo thread place with mutex := some thread }
  | some _ => manager

/-- `pthread_mutex_unlock`. -/
def unlock (thread : ℕ) (place : Place) : ThreadManager :=
  if manager.mutex = some thread then { manager.goTo thread place with mutex := none }
  else manager.failed

/-- `current_node->next = new_node`, or the head where there is no node yet. -/
def setNext (node next : Option Address) : ThreadManager :=
  match node with
  | none => { manager with head := next }
  | some address =>
    match manager.nodes address with
    | none => manager.failed
    | some node =>
      { manager with
        nodes := Function.update manager.nodes address (some { node with next := next }) }

/-- `free_connection`. -/
def freeConnection (connection : Address) : ThreadManager :=
  if manager.connections connection then
    { manager with connections := Function.update manager.connections connection false }
  else manager.failed

/-- `free(current_node)`. -/
def freeNode (address : Address) : ThreadManager :=
  match manager.nodes address with
  | none => manager.failed
  | some _ => { manager with nodes := Function.update manager.nodes address none }

/-- A step of `thread_manager_add_connection`. Where something fails it returns at once. -/
def addStep (thread : ℕ) (found : Option ℕ) : Place → ThreadManager
  | .addLock => manager.lock thread .addMalloc
  | .addMalloc =>
    match found with
    | none => manager.goTo thread (.addReturn none)
    | some connection =>
      if manager.connections connection then manager
      else
        { manager.goTo thread (.addWalk connection none manager.head) with
          connections := Function.update manager.connections connection true }
  | .addWalk connection currentNode none =>
    match found with
    | none => (manager.freeConnection connection).goTo thread (.addReturn none)
    | some newNode =>
      if (manager.nodes newNode).isSome then manager
      else
        let manager :=
          { manager with nodes := Function.update manager.nodes newNode (some ⟨connection, none⟩) }
        (manager.setNext currentNode (some newNode)).goTo thread (.addArgument connection)
  | .addWalk connection _ (some nextNode) =>
    match manager.nodes nextNode with
    | none => manager.failed
    | some node => manager.goTo thread (.addWalk connection (some nextNode) node.next)
  | .addArgument connection =>
    match found with
    | none => manager.goTo thread (.addReturn none)
    | some _ => manager.goTo thread (.addCreate connection)
  | .addCreate connection =>
    match found with
    | none => manager.goTo thread (.addReturn none)
    | some listener =>
      if (manager.threads listener).isSome then manager
      else (manager.goTo listener (.listening connection)).goTo thread (.addDetach connection)
  | .addDetach connection =>
    if !manager.connections connection then manager.failed
    else
      match found with
      | none => manager.goTo thread (.addReturn none)
      | some _ => manager.goTo thread (.addUnlock connection)
  | .addUnlock connection => manager.unlock thread (.addReturn (some connection))
  | _ => manager

/-- A step of `thread_manager_remove_connection`. -/
def removeStep (thread : ℕ) : Place → ThreadManager
  | .removeLock connection => manager.lock thread (.removeWalk connection manager.head none)
  | .removeWalk _ none _ => manager.goTo thread (.removeUnlock false)
  | .removeWalk connection (some currentNode) previousNode =>
    match manager.nodes currentNode with
    | none => manager.failed
    | some node =>
      if node.connection = connection then
        let manager := (manager.freeConnection connection).setNext previousNode node.next
        (manager.freeNode currentNode).goTo thread (.removeUnlock true)
      else manager.goTo thread (.removeWalk connection node.next (some currentNode))
  | .removeUnlock removed => manager.unlock thread (.ended (some removed))
  | _ => manager

/-- An event; one that its thread is not ready for changes nothing. -/
def step (manager : ThreadManager) : ThreadEvent → ThreadManager
  | .call thread =>
    match manager.threads thread with
    | some .idle => manager.goTo thread .addLock
    | some (.addReturn _) => manager.goTo thread .idle
    | _ => manager
  | .step thread found =>
    match manager.threads thread with
    | none => manager
    | some place =>
      match place with
      | .removeLock _ | .removeWalk .. | .removeUnlock _ => manager.removeStep thread place
      | _ => manager.addStep thread found place
  | .receive thread =>
    match manager.threads thread with
    | some (.listening connection) =>
      if manager.connections connection then manager else manager.failed
    | _ => manager
  | .close thread =>
    match manager.threads thread with
    | some (.listening connection) =>
      if manager.connections connection then manager.goTo thread (.removeLock connection)
      else manager.failed
    | _ => manager
  | .leave thread =>
    match manager.threads thread with
    | some (.listening _) => manager.goTo thread (.ended none)
    | _ => manager

end ThreadManager

end SimpleServer.Ws
