import SimpleServer.Lib.Run
import SimpleServer.Ftp.Data

/-!
# Calls of the data controller

The operations of the controller as the steps of one machine, which any thread may take in any
order. What each of them can do is said once here.

* `addConnection_cases`: nothing is added, the list could not grow, or there is a new connection.
* `forDataThread_cases`, `forControlThread_cases`: what the two lookups do.
* `closeLoop_eq`: what the clean-up keeps, closes and releases.
-/

namespace SimpleServer.Ftp

open Lib

/-- A call of the controller, with what it gets from outside. -/
inductive ControllerCall
  | setPortAsAvailable (index : ℕ) (port : UInt16)
  | getAvailablePort
  | forDataThread (env : CallEnv) (portIndex : ℕ)
  | addDescriptor (env : CallEnv) (connection : Pointer) (descriptor : ℕ)
  | forControlThread (env : CallEnv) (settings : FTPDataSettings)
  | getDescriptor (env : CallEnv) (connection : Pointer)
  | close (env : CallEnv) (connection : Pointer)
  | toClose (env : CallEnv)

def controllerStep (controller : DataController) : ControllerCall → DataController
  | .setPortAsAvailable index port => (dataConnectionSetPortAsAvailable controller index port).1
  | .getAvailablePort => (getAvailablePortForPassiveMode controller).1
  | .forDataThread env portIndex =>
    (getDataConnectionForDataThreadOrAddPassive controller env portIndex).1
  | .addDescriptor env connection descriptor =>
    (dataControllerAddDescriptor controller env connection descriptor).1
  | .forControlThread env settings =>
    (getDataConnectionForControlThreadOrAdd controller env settings).1
  | .getDescriptor env connection =>
    (dataConnectionGetDescriptorToSendTo controller env connection).1
  | .close env connection => (dataConnectionClose controller env connection).1
  | .toClose env => (dataConnectionsToClose controller env).1

variable {controller : DataController} {env : CallEnv} {p : Pointer}

/-! ## New connections -/

/-- A new connection at the end of the list. -/
def DataController.added (controller : DataController) (p : Pointer)
    (connection : DataConnection) : DataController :=
  { controller with
    connections := controller.connections ++ [p]
    memory := Function.update controller.memory p connection
    allocated := Function.update controller.allocated p true }

theorem added_memory (controller : DataController) (p : Pointer) (connection : DataConnection) :
    (controller.added p connection).memory p = connection := Function.update_self ..

theorem added_write (controller : DataController) (p : Pointer)
    (connection connection' : DataConnection) :
    (controller.added p connection).write p connection' = controller.added p connection' := by
  unfold DataController.added DataController.write
  rw [Function.update_idem]

/-- The memory and the time for a new connection are there, and it is pushed to the list. -/
def Adds (controller : DataController) (env : CallEnv) : Prop :=
  (∃ p ∈ env.malloc, controller.allocated p = false) ∧ env.now 0 ≠ none

instance (controller : DataController) (env : CallEnv) : Decidable (Adds controller env) :=
  inferInstanceAs (Decidable (_ ∧ _))

theorem malloc_cases (controller : DataController) (env : CallEnv) :
    controller.malloc env = none ∨
    ∃ p, env.malloc = some p ∧ controller.allocated p = false ∧
      controller.malloc env =
        some ({ controller with allocated := Function.update controller.allocated p true }, p) := by
  unfold DataController.malloc
  cases hmalloc : env.malloc with
  | none => exact .inl rfl
  | some p =>
    cases hallocated : controller.allocated p with
    | true => exact .inl (if_pos hallocated)
    | false => exact .inr ⟨p, rfl, hallocated, if_neg (by simp [hallocated])⟩

/-- **Adding a connection.** -/
theorem addConnection_cases (controller : DataController) (env : CallEnv)
    (fill : DataConnection → DataConnection)
    (prepare : DataController → Pointer → DataController) :
    addConnection controller env fill prepare = (controller, none) ∨
    (Adds controller env ∧ env.push = false) ∨
    ∃ p now, controller.allocated p = false ∧ env.now 0 = some now ∧
      env.push = true ∧ env.malloc = some p ∧
      ∃ prepared, prepared = prepare
        { controller with
          memory := Function.update controller.memory p
            { fill (controller.memory p) with lastChange := now }
          allocated := Function.update controller.allocated p true } p ∧
        addConnection controller env fill prepare =
          ({ prepared with connections := prepared.connections ++ [p] }, some p) := by
  rcases malloc_cases controller env with hnone | ⟨p, hmalloc, hfresh, hsome⟩
  · left
    unfold addConnection
    rw [hnone]
  cases hnow : env.now 0 with
  | none =>
    -- the memory is given back
    left
    unfold addConnection
    rw [hsome]
    dsimp only
    rw [hnow]
    have hallocated : ({ controller with
        allocated := Function.update controller.allocated p true } : DataController).free [p] =
        controller := by
      unfold DataController.free
      congr 1
      funext q
      by_cases hq : q = p
      · subst hq
        simp [hfresh]
      · simp [hq]
    rw [hallocated]
  | some now =>
    cases hpush : env.push with
    | false => exact .inr (.inl ⟨⟨⟨p, hmalloc, hfresh⟩, by rw [hnow]; rintro ⟨⟩⟩, rfl⟩)
    | true =>
      refine .inr (.inr ⟨p, now, hfresh, rfl, rfl, hmalloc, _, rfl, ?_⟩)
      unfold addConnection
      rw [hsome]
      dsimp only
      rw [hnow]
      dsimp only
      rw [hpush, if_pos rfl]
      rfl

/-- A connection with this identifier is added, since the list has none. -/
def AddsNew (controller : DataController) (env : CallEnv)
    (identifier : ConnectionTypeIdentifier) : Prop :=
  Adds controller env ∧ ∀ p ∈ controller.connections,
    (controller.memory p).identifier ≠ identifier

instance (controller : DataController) (env : CallEnv) (identifier : ConnectionTypeIdentifier) :
    Decidable (AddsNew controller env identifier) :=
  inferInstanceAs (Decidable (_ ∧ _))

/-- **The lookup of a listener thread.** -/
theorem forDataThread_cases (controller : DataController) (env : CallEnv) (portIndex : ℕ) :
    getDataConnectionForDataThreadOrAddPassive controller env portIndex =
      (controller.refresh env, none) ∨
    (∃ metadata p, controller.ports[portIndex]? = some metadata ∧ p ∈ controller.connections ∧
      ((controller.refresh env).memory p).identifier = .passive metadata.port ∧
      getDataConnectionForDataThreadOrAddPassive controller env portIndex =
        ({ controller.refresh env with
            ports := associatePort portIndex p controller.ports }, some p)) ∨
    ∃ metadata, controller.ports[portIndex]? = some metadata ∧
      AddsNew (controller.refresh env) env (.passive metadata.port) ∧
      (env.push = false ∨ ∃ p connection, controller.allocated p = false ∧
        connection.identifier = .passive metadata.port ∧ connection.state = .empty ∧
        connection.descriptor = none ∧
        getDataConnectionForDataThreadOrAddPassive controller env portIndex =
          ({ (controller.refresh env).added p connection with
              ports := associatePort portIndex p controller.ports }, some p)) := by
  cases hmetadata : controller.ports[portIndex]? with
  | none =>
    left
    unfold getDataConnectionForDataThreadOrAddPassive
    dsimp only
    rw [show (controller.refresh env).ports[portIndex]? = none from hmetadata]
  | some metadata =>
    have hports : (controller.refresh env).ports[portIndex]? = some metadata := hmetadata
    cases hfind : (controller.refresh env).connections.find? fun p =>
        ((controller.refresh env).memory p).identifier = .passive metadata.port with
    | some p =>
      refine .inr (.inl ⟨metadata, p, rfl, List.mem_of_find?_eq_some hfind, ?_, ?_⟩)
      · simpa using List.find?_some hfind
      · unfold getDataConnectionForDataThreadOrAddPassive
        dsimp only
        rw [hports]
        dsimp only
        rw [hfind]
        rfl
    | none =>
      have hnew : ∀ p ∈ controller.connections,
          ((controller.refresh env).memory p).identifier ≠ .passive metadata.port := by
        intro p hp
        simpa using List.find?_eq_none.1 hfind p hp
      have hresult : getDataConnectionForDataThreadOrAddPassive controller env portIndex =
          addConnection (controller.refresh env) env
            (fun connection =>
              { connection with
                identifier := .passive metadata.port
                state := .empty
                descriptor := none
                controlState := .missing
                associatedThread := 0 })
            (fun controller p =>
              { controller with ports := associatePort portIndex p controller.ports }) := by
        unfold getDataConnectionForDataThreadOrAddPassive
        dsimp only
        rw [hports]
        dsimp only
        rw [hfind]
      rw [hresult]
      rcases addConnection_cases (controller.refresh env) env _ _ with
        hnone | ⟨hadds, hpush⟩ | ⟨p, now, hfresh, hnow, -, hmalloc, _, rfl, hadded⟩
      · exact .inl hnone
      · exact .inr (.inr ⟨metadata, rfl, ⟨hadds, hnew⟩, .inl hpush⟩)
      · have hadds : Adds (controller.refresh env) env :=
          ⟨⟨p, hmalloc, hfresh⟩, by rw [hnow]; rintro ⟨⟩⟩
        exact .inr (.inr ⟨metadata, rfl, ⟨hadds, hnew⟩,
          .inr ⟨p, _, hfresh, rfl, rfl, rfl, hadded⟩⟩)

/-- The client of an active connection accepts when it is asked for the first time. -/
def ConnectsAtOnce (env : CallEnv) (identifier : ConnectionTypeIdentifier) : Prop :=
  (match identifier with
    | .active _ => True
    | _ => False) ∧ env.socket ≠ none ∧ env.connect = .connected

instance (env : CallEnv) (identifier : ConnectionTypeIdentifier) :
    Decidable (ConnectsAtOnce env identifier) :=
  match identifier with
  | .active _ => inferInstanceAs (Decidable (True ∧ _ ∧ _))
  | .passive _ => isFalse fun h => h.1
  | .automatic => isFalse fun h => h.1

theorem setupActive_cases (env : CallEnv) (controller : DataController) (p : Pointer)
    (connection : DataConnection) (addr : FTPConnectAddr) :
    setupActive env (controller.added p connection) p addr =
      (controller.added p connection, none) ∨
    (∃ activeData, setupActive env (controller.added p connection) p addr =
      (controller.added p { connection with activeData := activeData }, none)) ∨
    (ConnectsAtOnce env (.active addr) ∧ ∃ connected,
      connected.identifier = connection.identifier ∧
      setupActive env (controller.added p connection) p addr =
        (controller.added p connected, some p)) := by
  unfold setupActive ntsInternalSetupNewActiveConnection
  dsimp only
  cases hsocket : env.socket with
  | none => exact .inl rfl
  | some sockFd =>
    dsimp only [ntsInternalTryIfActiveConnectionIsConnected]
    cases hconnect : env.connect with
    | connected =>
      have honce : ConnectsAtOnce env (.active addr) :=
        ⟨trivial, by rw [hsocket]; rintro ⟨⟩, hconnect⟩
      dsimp only
      rw [added_memory, added_write]
      refine .inr (.inr ⟨honce, _, ?_, rfl⟩)
      rfl
    | pending =>
      dsimp only
      rw [added_memory, added_write]
      exact .inr (.inl ⟨_, rfl⟩)
    | failed => exact .inl rfl

/-- What becomes of a connection that a control thread adds. -/
theorem addWaiting_cases (controller : DataController) (env : CallEnv)
    (identifier : ConnectionTypeIdentifier) :
    addWaiting controller env identifier = (controller, none) ∨
    (Adds controller env ∧ (env.push = false ∨
      ∃ p connection got, controller.allocated p = false ∧
        connection.identifier = identifier ∧
        addWaiting controller env identifier = (controller.added p connection, got) ∧
        (ConnectsAtOnce env identifier ∨ (connection.state = .hasAssociatedControl ∧
          connection.descriptor = none ∧ got = none)))) := by
  unfold addWaiting
  dsimp only
  rcases addConnection_cases controller env
      (fun connection =>
        { connection with
          identifier := identifier
          state := .hasAssociatedControl
          descriptor := none
          controlState := .missing
          associatedThread := env.self
          activeData := none }) (fun controller _ => controller) with
    hnone | ⟨hadds, hpush⟩ | ⟨p, now, hfresh, hnow, -, hmalloc, _, rfl, hadded⟩
  · left
    rw [hnone]
  · exact .inr ⟨hadds, .inl hpush⟩
  have hadds : Adds controller env := ⟨⟨p, hmalloc, hfresh⟩, by rw [hnow]; rintro ⟨⟩⟩
  refine .inr ⟨hadds, .inr ?_⟩
  rw [hadded]
  cases identifier with
  | passive port => exact ⟨p, _, none, hfresh, rfl, rfl, .inr ⟨rfl, rfl, rfl⟩⟩
  | automatic => exact ⟨p, _, none, hfresh, rfl, rfl, .inr ⟨rfl, rfl, rfl⟩⟩
  | active addr =>
    rcases setupActive_cases env controller p _ addr with
      hnone | ⟨activeData, hpending⟩ | ⟨honce, connected, hidentifier, hconnected⟩
    · exact ⟨p, _, none, hfresh, rfl, hnone, .inr ⟨rfl, rfl, rfl⟩⟩
    · exact ⟨p, _, none, hfresh, rfl, hpending, .inr ⟨rfl, rfl, rfl⟩⟩
    · exact ⟨p, connected, some p, hfresh, hidentifier, hconnected, .inl honce⟩

/-- **The lookup of a control thread.** -/
theorem forControlThread_cases (controller : DataController) (env : CallEnv)
    (settings : FTPDataSettings) :
    getDataConnectionForControlThreadOrAdd controller env settings =
      (controller.refresh env, none) ∨
    (∃ p ∈ controller.connections, ∃ resumed,
      resumed = resume env (retrieve env ((controller.refresh env).memory p)).1
        (retrieve env ((controller.refresh env).memory p)).2 ∧
      getDataConnectionForControlThreadOrAdd controller env settings =
        ((controller.refresh env).write p resumed.1, if resumed.2 then some p else none)) ∨
    (¬ (ntsInternalConnIdentifierFromSettings settings = .passive 0 ∨
        ntsInternalConnIdentifierFromSettings settings = .automatic) ∧
      AddsNew (controller.refresh env) env (ntsInternalConnIdentifierFromSettings settings) ∧
      (env.push = false ∨ ∃ p connection got, controller.allocated p = false ∧
        connection.identifier = ntsInternalConnIdentifierFromSettings settings ∧
        getDataConnectionForControlThreadOrAdd controller env settings =
          ((controller.refresh env).added p connection, got) ∧
        (ConnectsAtOnce env (ntsInternalConnIdentifierFromSettings settings) ∨
          (connection.state = .hasAssociatedControl ∧ connection.descriptor = none ∧
            got = none)))) := by
  unfold getDataConnectionForControlThreadOrAdd
  dsimp only
  split_ifs with hnothing
  · exact .inl rfl
  cases hfind : (controller.refresh env).connections.find? fun p =>
      ((controller.refresh env).memory p).identifier =
        ntsInternalConnIdentifierFromSettings settings with
  | some p =>
    exact .inr (.inl ⟨p, List.mem_of_find?_eq_some hfind, _, rfl, rfl⟩)
  | none =>
    have hnew : ∀ p ∈ controller.connections, ((controller.refresh env).memory p).identifier ≠
        ntsInternalConnIdentifierFromSettings settings := by
      intro p hp
      simpa using List.find?_eq_none.1 hfind p hp
    rcases addWaiting_cases (controller.refresh env) env
        (ntsInternalConnIdentifierFromSettings settings) with hnone | ⟨hadds, hadded⟩
    · exact .inl hnone
    · exact .inr (.inr ⟨hnothing, ⟨hadds, hnew⟩, hadded⟩)

/-- The call adds a connection to the list. -/
def ControllerCall.AddsConnection (controller : DataController) : ControllerCall → Prop
  | .forDataThread env portIndex => ∃ metadata ∈ controller.ports[portIndex]?,
    AddsNew (controller.refresh env) env (.passive metadata.port)
  | .forControlThread env settings =>
    ¬ (ntsInternalConnIdentifierFromSettings settings = .passive 0 ∨
      ntsInternalConnIdentifierFromSettings settings = .automatic) ∧
    AddsNew (controller.refresh env) env (ntsInternalConnIdentifierFromSettings settings)
  | _ => False

instance (controller : DataController) (call : ControllerCall) :
    Decidable (call.AddsConnection controller) :=
  match call with
  | .forDataThread _ _ => inferInstanceAs (Decidable (∃ metadata ∈ controller.ports[_]?, _))
  | .forControlThread _ _ => inferInstanceAs (Decidable (¬ _ ∧ _))
  | .setPortAsAvailable _ _ | .getAvailablePort | .addDescriptor _ _ _ | .getDescriptor _ _
  | .close _ _ | .toClose _ => isFalse id

/-- `TVEC_PUSH` succeeds in the call. -/
def ControllerCall.pushes : ControllerCall → Bool
  | .forDataThread env _ => env.push
  | .forControlThread env _ => env.push
  | _ => true

/-! ## The clean-up -/

/-- The clean-up closes the connection it finds at the `i`th place. -/
def Due (memory : Pointer → DataConnection) (now : ℕ → Option ℕ) (filter : Option Pointer)
    (i : ℕ) (p : Pointer) : Prop :=
  ntsInternalShouldCloseConnection (memory p) (now i) = true ∧ (filter = none ∨ filter = some p)

instance (memory : Pointer → DataConnection) (now : ℕ → Option ℕ) (filter : Option Pointer)
    (i : ℕ) (p : Pointer) : Decidable (Due memory now filter i p) :=
  inferInstanceAs (Decidable (_ ∧ _))

/-- Those that are closed, of the connections from the `i`th on. -/
def closedFrom (memory : Pointer → DataConnection) (now : ℕ → Option ℕ)
    (filter : Option Pointer) (i : ℕ) (ps : List Pointer) : List Pointer :=
  ((ps.zipIdx i).filter fun place => Due memory now filter place.2 place.1).map Prod.fst

/-- Those that are kept. -/
def keptFrom (memory : Pointer → DataConnection) (now : ℕ → Option ℕ)
    (filter : Option Pointer) (i : ℕ) (ps : List Pointer) : List Pointer :=
  ((ps.zipIdx i).filter fun place => ¬ Due memory now filter place.2 place.1).map Prod.fst

/-- The port of a connection that is closed is released. -/
def releasePort (memory : Pointer → DataConnection) (ports : List PortMetadata) (p : Pointer) :
    List PortMetadata :=
  match (memory p).identifier with
  | .passive _ => deallocPort p ports
  | _ => ports

section Closing

variable {memory : Pointer → DataConnection} {now : ℕ → Option ℕ} {filter : Option Pointer}

theorem closedFrom_cons (i : ℕ) (p : Pointer) (ps : List Pointer) :
    closedFrom memory now filter i (p :: ps) =
      if Due memory now filter i p then p :: closedFrom memory now filter (i + 1) ps
      else closedFrom memory now filter (i + 1) ps := by
  unfold closedFrom
  rw [List.zipIdx_cons, List.filter_cons]
  by_cases h : Due memory now filter i p
  · simp [h]
  · simp [h]

theorem keptFrom_cons (i : ℕ) (p : Pointer) (ps : List Pointer) :
    keptFrom memory now filter i (p :: ps) =
      if Due memory now filter i p then keptFrom memory now filter (i + 1) ps
      else p :: keptFrom memory now filter (i + 1) ps := by
  unfold keptFrom
  rw [List.zipIdx_cons, List.filter_cons]
  by_cases h : Due memory now filter i p
  · simp [h]
  · simp [h]

theorem closeLoop_cons (i : ℕ) (p : Pointer) (ps : List Pointer) (closing : Closing) :
    closeLoop memory now filter i (p :: ps) closing =
      if Due memory now filter i p then
        closeLoop memory now filter (i + 1) ps
          { closing with
            ports := releasePort memory closing.ports p
            closed := closing.closed ++ [(memory p).descriptor] }
      else
        closeLoop memory now filter (i + 1) ps { closing with kept := closing.kept ++ [p] } :=
  rfl

/-- **The loop of the clean-up.** -/
theorem closeLoop_eq (ps : List Pointer) : ∀ i closing,
    closeLoop memory now filter i ps closing =
      ⟨(closedFrom memory now filter i ps).foldl (releasePort memory) closing.ports,
        closing.kept ++ keptFrom memory now filter i ps,
        closing.closed ++ (closedFrom memory now filter i ps).map fun p =>
          (memory p).descriptor⟩ := by
  induction ps with
  | nil =>
    intro i closing
    simp [closeLoop, closedFrom, keptFrom]
  | cons p ps ih =>
    intro i closing
    rw [closedFrom_cons, keptFrom_cons, closeLoop_cons]
    by_cases h : Due memory now filter i p
    · rw [if_pos h, if_pos h, if_pos h, ih]
      simp only [List.foldl_cons, List.map_cons, List.append_assoc, List.singleton_append]
    · rw [if_neg h, if_neg h, if_neg h, ih]
      simp only [List.append_assoc, List.singleton_append]

theorem mem_keptFrom {ps : List Pointer} {i : ℕ} (h : p ∈ keptFrom memory now filter i ps) :
    p ∈ ps := by
  unfold keptFrom at h
  obtain ⟨place, hplace, rfl⟩ := List.mem_map.1 h
  exact List.fst_mem_of_mem_zipIdx (List.mem_of_mem_filter hplace)

end Closing

end SimpleServer.Ftp
