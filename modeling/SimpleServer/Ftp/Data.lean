import SimpleServer.Ftp.State

/-!
# The data connections (`ftp/data.c`)

The controller is shared by all control and listener threads. Each of its operations holds
the mutex of the controller, so it is a function from the controller before to the one after.
The list of connections holds pointers, and the clean-up frees every connection of the old list,
also those it keeps in the new one. So memory is part of the model: what a freed
connection holds is not known, and an operation that looks at one reads anything.

* `getDataConnectionForControlThreadOrAdd_identifier`: what is returned has the identifier of
  the settings it was asked for with.
* `Releases`: every operation but the two on ports leaves the ports, or frees some.
-/

namespace SimpleServer.Ftp

/-- A `DataConnection*` that is not null. -/
abbrev Pointer := ℕ

inductive DataConnectionState
  | empty
  | hasDescriptor
  | hasAssociatedControl
  | hasBoth
deriving Repr, DecidableEq

inductive DataConnectionControlState
  | missing
  | retrieved
  | sending
  | shouldClose
  | error
deriving Repr, DecidableEq

inductive ConnectionTypeIdentifier
  | active (addr : FTPConnectAddr)
  | passive (port : UInt16)
  | automatic
deriving Repr, DecidableEq

inductive ActiveConnectionData
  | resumed (sockFd : ℕ) (connectAddr : FTPConnectAddr)
  | connected (sockFd : ℕ)
deriving Repr, DecidableEq

/-- A connection, with the socket for its descriptor and the time in nanoseconds. -/
structure DataConnection where
  state : DataConnectionState
  controlState : DataConnectionControlState
  lastChange : ℕ
  descriptor : Option ℕ
  identifier : ConnectionTypeIdentifier
  activeData : Option ActiveConnectionData
  associatedThread : ℕ
deriving Repr, DecidableEq

structure PortMetadata where
  associatedConnection : Option Pointer
  port : UInt16
  available : Bool
  reserved : Bool
deriving Repr, DecidableEq

/-- The controller, and the memory its connections are in. -/
structure DataController where
  connections : List Pointer
  ports : List PortMetadata
  memory : Pointer → DataConnection
  allocated : Pointer → Bool

inductive ConnectResult
  | connected
  /-- Not yet, or interrupted. -/
  | pending
  | failed
deriving Repr, DecidableEq

/-- What an operation gets from outside. -/
structure CallEnv where
  /-- `get_monotonic_time`, at each place an operation calls it. -/
  now : ℕ → Option ℕ
  /-- `pthread_self`. -/
  self : ℕ
  /-- What `malloc` returns; memory in use stands for a failure. -/
  malloc : Option Pointer
  /-- `TVEC_PUSH` succeeds. -/
  push : Bool
  socket : Option ℕ
  connect : ConnectResult
  /-- `pthread_kill` succeeds. -/
  kill : Bool
  /-- What freed memory holds. -/
  freed : Pointer → DataConnection

/-- `initialize_data_controller`. -/
def initializeDataController (passivePortAmount : ℕ) (memory : Pointer → DataConnection) :
    DataController :=
  { connections := []
    ports := List.replicate passivePortAmount ⟨none, 0, false, false⟩
    memory := memory
    allocated := fun _ => false }

/-! ## Memory -/

/-- Freed memory holds anything when the operation starts. -/
def DataController.refresh (controller : DataController) (env : CallEnv) : DataController :=
  { controller with
    memory := fun p => if controller.allocated p then controller.memory p else env.freed p }

def DataController.write (controller : DataController) (p : Pointer) (connection : DataConnection) :
    DataController :=
  { controller with memory := Function.update controller.memory p connection }

def DataController.free (controller : DataController) (ps : List Pointer) : DataController :=
  { controller with allocated := fun p => controller.allocated p && !ps.contains p }

def DataController.malloc (controller : DataController) (env : CallEnv) :
    Option (DataController × Pointer) :=
  match env.malloc with
  | none => none
  | some p =>
    if controller.allocated p then none
    else some ({ controller with allocated := Function.update controller.allocated p true }, p)

/-! ## Ports -/

def dataConnectionSetPortAsAvailable (controller : DataController) (index : ℕ) (port : UInt16) :
    DataController × Bool :=
  if controller.ports.length ≤ index then (controller, false)
  else
    ({ controller with
        ports := controller.ports.modify index
          fun metadata => { metadata with available := true, port := port } }, true)

/-- `get_available_port_for_passive_mode`; the port is 0 if there is none. -/
def getAvailablePortForPassiveMode (controller : DataController) : DataController × UInt16 :=
  let index := controller.ports.findIdx fun metadata => metadata.available && !metadata.reserved
  match controller.ports[index]? with
  | none => (controller, 0)
  | some metadata =>
    ({ controller with
        ports := controller.ports.modify index
          fun metadata => { metadata with reserved := true } }, metadata.port)

/-- The port of a connection that is closed can be reserved again. -/
def deallocPort (p : Pointer) (ports : List PortMetadata) : List PortMetadata :=
  ports.modify (ports.findIdx fun metadata => metadata.associatedConnection == some p)
    fun metadata => { metadata with associatedConnection := none, reserved := false }

/-- The port gets a connection, if it has none. -/
def associatePort (index : ℕ) (p : Pointer) (ports : List PortMetadata) : List PortMetadata :=
  ports.modify index fun metadata =>
    if metadata.associatedConnection = none then
      { metadata with associatedConnection := some p }
    else metadata

/-! ## Clients that connect to a passive port -/

/-- A new connection is filled, timed and added to the list; `prepare` is what is done to it
before it is added. -/
def addConnection (controller : DataController) (env : CallEnv)
    (fill : DataConnection → DataConnection)
    (prepare : DataController → Pointer → DataController) :
    DataController × Option Pointer :=
  match controller.malloc env with
  | none => (controller, none)
  | some (controller, p) =>
    match env.now 0 with
    | none => (controller.free [p], none)
    | some now =>
      let connection := { fill (controller.memory p) with lastChange := now }
      let controller := prepare (controller.write p connection) p
      if env.push then
        ({ controller with connections := controller.connections ++ [p] }, some p)
      else (controller.free (p :: controller.connections), none)

def getDataConnectionForDataThreadOrAddPassive (controller : DataController) (env : CallEnv)
    (portIndex : ℕ) : DataController × Option Pointer :=
  let controller := controller.refresh env
  match controller.ports[portIndex]? with
  | none => (controller, none)
  | some metadata =>
    -- connections are told apart by the number of the port alone
    let found := controller.connections.find? fun p =>
      (controller.memory p).identifier = .passive metadata.port
    let associate := fun (controller : DataController) p =>
      { controller with ports := associatePort portIndex p controller.ports }
    match found with
    | some p => (associate controller p, some p)
    | none =>
      addConnection controller env
        (fun connection =>
          { connection with
            identifier := .passive metadata.port
            state := .empty
            descriptor := none
            controlState := .missing
            associatedThread := 0 })
        associate

def dataControllerAddDescriptor (controller : DataController) (env : CallEnv) (p : Pointer)
    (descriptor : ℕ) : DataController × Bool :=
  let controller := controller.refresh env
  let connection := controller.memory p
  let attach := fun (state : DataConnectionState) =>
    let connection := { connection with descriptor := some descriptor }
    match env.now 0 with
    | none => (controller.write p connection, false)
    | some now =>
      let connection := { connection with lastChange := now, state := state }
      -- a thread that waits for the descriptor is woken up
      (controller.write p connection, connection.associatedThread = 0 || env.kill)
  match connection.state with
  | .empty => attach .hasDescriptor
  | .hasAssociatedControl => attach .hasBoth
  | .hasDescriptor | .hasBoth => (controller, false)

/-! ## Closing -/

/-- `DATA_CONNECTION_WAIT_FOR_INTERNAL_NEGOTIATION_TIMEOUT_S_D`, in nanoseconds. -/
def internalNegotiationTimeout : ℕ := 30 * 1000000000

def ntsInternalShouldCloseConnection (connection : DataConnection) (now : Option ℕ) : Bool :=
  -- a connection with both sides never times out
  if connection.state ≠ .hasBoth then
    match now with
    | none => false
    | some now => connection.lastChange + internalNegotiationTimeout ≤ now
  else connection.controlState = .shouldClose || connection.controlState = .error

/-- What the loop over the connections leaves. -/
structure Closing where
  ports : List PortMetadata
  kept : List Pointer
  closed : List (Option ℕ)

/-- The loop over the connections, from the `i`th on. -/
def closeLoop (memory : Pointer → DataConnection) (now : ℕ → Option ℕ) (filter : Option Pointer) :
    ℕ → List Pointer → Closing → Closing
  | _, [], closing => closing
  | i, p :: ps, closing =>
    let connection := memory p
    if ntsInternalShouldCloseConnection connection (now i) ∧ (filter = none ∨ filter = some p) then
      let ports :=
        match connection.identifier with
        | .passive _ => deallocPort p closing.ports
        | _ => closing.ports
      closeLoop memory now filter (i + 1) ps
        { closing with ports := ports, closed := closing.closed ++ [connection.descriptor] }
    else
      closeLoop memory now filter (i + 1) ps { closing with kept := closing.kept ++ [p] }

def ntsInternalDataConnectionsToClose (controller : DataController) (env : CallEnv)
    (filter : Option Pointer) : DataController × List (Option ℕ) :=
  let closing := closeLoop controller.memory env.now filter 0 controller.connections
    ⟨controller.ports, [], []⟩
  -- all connections of the old list are freed, also those that are kept
  let controller := controller.free controller.connections
  ({ controller with ports := closing.ports, connections := closing.kept }, closing.closed)

def dataConnectionsToClose (controller : DataController) (env : CallEnv) :
    DataController × List (Option ℕ) :=
  ntsInternalDataConnectionsToClose (controller.refresh env) env none

/-! ## Control threads -/

def ntsInternalConnIdentifierFromSettings : FTPDataSettings → ConnectionTypeIdentifier
  | .active addr => .active addr
  | .passive addr => .passive addr.port
  | .none => .automatic

/-- `nts_internal_try_if_active_connection_is_connected`; `none` is its `false`. -/
def ntsInternalTryIfActiveConnectionIsConnected (env : CallEnv) :
    ActiveConnectionData → Option ActiveConnectionData
  | .connected sockFd => some (.connected sockFd)
  | .resumed sockFd connectAddr =>
    match env.connect with
    | .connected => some (.connected sockFd)
    | .pending => some (.resumed sockFd connectAddr)
    | .failed => none

def ntsInternalSetupNewActiveConnection (env : CallEnv) (addr : FTPConnectAddr) :
    Option ActiveConnectionData :=
  match env.socket with
  | none => none
  | some sockFd => ntsInternalTryIfActiveConnectionIsConnected env (.resumed sockFd addr)

/-- `nts_internal_set_last_change_to_now`, where an error does not matter. -/
def DataConnection.touch (connection : DataConnection) (env : CallEnv) (call : ℕ) :
    DataConnection :=
  { connection with lastChange := (env.now call).getD connection.lastChange }

/-- What a control thread does to the connection it found, and whether it gets it. -/
def retrieve (env : CallEnv) (connection : DataConnection) : DataConnection × Bool :=
  match connection.state with
  | .empty =>
    -- the client is still to come: the thread is noted and has to wait
    ({ connection.touch env 0 with
        state := .hasAssociatedControl
        associatedThread := env.self }, false)
  | .hasDescriptor =>
    ({ connection with
        state := .hasBoth
        controlState := .retrieved
        associatedThread := env.self }, true)
  | .hasAssociatedControl => (connection, false)
  | .hasBoth =>
    -- whoever asks gets the connection, also from the thread that has it
    ({ connection with
        controlState := .retrieved
        associatedThread := env.self }, true)

/-- An active connection is tried again when it is asked for. -/
def resume (env : CallEnv) (connection : DataConnection) (got : Bool) : DataConnection × Bool :=
  match connection.identifier, connection.activeData with
  | .active _, some activeData =>
    match ntsInternalTryIfActiveConnectionIsConnected env activeData with
    | none => (connection, got)
    | some (.resumed sockFd connectAddr) =>
      ({ connection with activeData := some (.resumed sockFd connectAddr) }, got)
    | some (.connected sockFd) =>
      ({ connection.touch env 1 with
          state := .hasBoth
          controlState := .retrieved
          descriptor := some sockFd
          activeData := none }, true)
  | _, _ => (connection, got)

/-- A connection that was added for an active mode is set up; it is returned if it is connected
at once. -/
def setupActive (env : CallEnv) (controller : DataController) (p : Pointer)
    (addr : FTPConnectAddr) : DataController × Option Pointer :=
  let connection := controller.memory p
  match ntsInternalSetupNewActiveConnection env addr with
  | none => (controller, none)
  | some (.resumed sockFd connectAddr) =>
    (controller.write p
      { connection with activeData := some (.resumed sockFd connectAddr) }, none)
  | some (.connected sockFd) =>
    (controller.write p
      { connection.touch env 1 with
        activeData := some (.connected sockFd)
        state := .hasBoth
        controlState := .retrieved }, some p)

/-- A control thread adds the connection it waits for. -/
def addWaiting (controller : DataController) (env : CallEnv)
    (identifier : ConnectionTypeIdentifier) : DataController × Option Pointer :=
  let added := addConnection controller env
    (fun connection =>
      { connection with
        identifier := identifier
        state := .hasAssociatedControl
        descriptor := none
        controlState := .missing
        associatedThread := env.self
        activeData := none })
    (fun controller _ => controller)
  match added.2, identifier with
  | some p, .active addr => setupActive env added.1 p addr
  | _, _ => (added.1, none)

def getDataConnectionForControlThreadOrAdd (controller : DataController) (env : CallEnv)
    (settings : FTPDataSettings) : DataController × Option Pointer :=
  let controller := controller.refresh env
  let identifier := ntsInternalConnIdentifierFromSettings settings
  if identifier = .passive 0 ∨ identifier = .automatic then (controller, none)
  else
    match controller.connections.find? fun p => (controller.memory p).identifier = identifier with
    | some p =>
      let retrieved := retrieve env (controller.memory p)
      let resumed := resume env retrieved.1 retrieved.2
      (controller.write p resumed.1, if resumed.2 then some p else none)
    | none => addWaiting controller env identifier

def dataConnectionGetDescriptorToSendTo (controller : DataController) (env : CallEnv)
    (p : Pointer) : DataController × Option ℕ :=
  let controller := controller.refresh env
  let connection := controller.memory p
  if connection.state ≠ .hasBoth ∨ connection.controlState ≠ .retrieved then
    (controller.write p { connection with controlState := .error }, none)
  else (controller.write p { connection with controlState := .sending }, connection.descriptor)

def ntsInternalCloseConnection (controller : DataController) (env : CallEnv) (p : Pointer) :
    DataController × Bool :=
  let result := ntsInternalDataConnectionsToClose controller env (some p)
  (result.1, result.2.length ≤ 1)

def dataConnectionClose (controller : DataController) (env : CallEnv) (p : Pointer) :
    DataController × Bool :=
  let controller := controller.refresh env
  let connection := controller.memory p
  if connection.state ≠ .hasBoth ∨ connection.controlState ≠ .sending then
    (controller.write p { connection with controlState := .error }, false)
  else
    ntsInternalCloseConnection
      (controller.write p { connection with controlState := .shouldClose }) env p

/-! ## What happens to the ports -/

/-- The ports are the same, but some may no longer be reserved. -/
def Releases (ports ports' : List PortMetadata) : Prop :=
  ∀ (i : ℕ) (metadata' : PortMetadata), ports'[i]? = some metadata' →
    ∃ metadata, ports[i]? = some metadata ∧ metadata'.port = metadata.port ∧
      metadata'.available = metadata.available ∧
      (metadata'.reserved = true → metadata.reserved = true)

theorem Releases.refl (ports : List PortMetadata) : Releases ports ports :=
  fun _ metadata h => ⟨metadata, h, rfl, rfl, id⟩

theorem Releases.trans {ports ports' ports'' : List PortMetadata} (h : Releases ports ports')
    (h' : Releases ports' ports'') : Releases ports ports'' := by
  intro i metadata'' hget
  obtain ⟨metadata', hget', hport', havailable', hreserved'⟩ := h' i metadata'' hget
  obtain ⟨metadata, hget, hport, havailable, hreserved⟩ := h i metadata' hget'
  exact ⟨metadata, hget, hport'.trans hport, havailable'.trans havailable,
    fun hr => hreserved (hreserved' hr)⟩

/-- An entry after a change of one entry. -/
theorem getElem?_modify_cases {ports : List PortMetadata} {index i : ℕ}
    {f : PortMetadata → PortMetadata} {metadata' : PortMetadata}
    (h : (ports.modify index f)[i]? = some metadata') :
    ∃ metadata, ports[i]? = some metadata ∧
      ((i = index ∧ metadata' = f metadata) ∨ (i ≠ index ∧ metadata' = metadata)) := by
  rw [List.getElem?_modify] at h
  obtain ⟨metadata, hget, heq⟩ := Option.map_eq_some_iff.1 h
  refine ⟨metadata, hget, ?_⟩
  split_ifs at heq with hi
  · exact .inl ⟨hi.symm, heq.symm⟩
  · exact .inr ⟨fun hne => hi hne.symm, heq.symm⟩

theorem releases_modify {ports : List PortMetadata} (index : ℕ) {f : PortMetadata → PortMetadata}
    (hport : ∀ metadata, (f metadata).port = metadata.port)
    (havailable : ∀ metadata, (f metadata).available = metadata.available)
    (hreserved : ∀ metadata, (f metadata).reserved = true → metadata.reserved = true) :
    Releases ports (ports.modify index f) := by
  intro i metadata' h
  obtain ⟨metadata, hget, ⟨-, rfl⟩ | ⟨-, rfl⟩⟩ := getElem?_modify_cases h
  · exact ⟨metadata, hget, hport _, havailable _, hreserved _⟩
  · exact ⟨_, hget, rfl, rfl, id⟩

theorem deallocPort_releases (p : Pointer) (ports : List PortMetadata) :
    Releases ports (deallocPort p ports) :=
  releases_modify _ (fun _ => rfl) (fun _ => rfl) nofun

theorem associatePort_releases (index : ℕ) (p : Pointer) (ports : List PortMetadata) :
    Releases ports (associatePort index p ports) := by
  refine releases_modify index ?_ ?_ ?_
  all_goals
    intro metadata
    split_ifs
  · rfl
  · rfl
  · rfl
  · rfl
  · exact id
  · exact id

theorem closeLoop_releases (memory : Pointer → DataConnection) (now : ℕ → Option ℕ)
    (filter : Option Pointer) (ps : List Pointer) :
    ∀ i closing, Releases closing.ports (closeLoop memory now filter i ps closing).ports := by
  induction ps with
  | nil => exact fun _ closing => .refl _
  | cons p ps ih =>
    intro i closing
    unfold closeLoop
    dsimp only
    split_ifs
    · split
      · exact (deallocPort_releases p _).trans
          (ih (i + 1) ⟨deallocPort p closing.ports, closing.kept, _⟩)
      · exact ih (i + 1) ⟨closing.ports, closing.kept, _⟩
    · exact ih (i + 1) ⟨closing.ports, closing.kept ++ [p], closing.closed⟩

variable {controller : DataController} {env : CallEnv} {settings : FTPDataSettings} {p : Pointer}

theorem ntsInternalDataConnectionsToClose_releases (controller : DataController) (env : CallEnv)
    (filter : Option Pointer) :
    Releases controller.ports
      (ntsInternalDataConnectionsToClose controller env filter).1.ports :=
  closeLoop_releases _ _ _ _ _ _

theorem dataConnectionsToClose_releases (controller : DataController) (env : CallEnv) :
    Releases controller.ports (dataConnectionsToClose controller env).1.ports :=
  ntsInternalDataConnectionsToClose_releases (controller.refresh env) env none

theorem dataConnectionClose_releases (controller : DataController) (env : CallEnv) (p : Pointer) :
    Releases controller.ports (dataConnectionClose controller env p).1.ports := by
  unfold dataConnectionClose
  dsimp only
  split_ifs
  · exact .refl _
  · exact ntsInternalDataConnectionsToClose_releases _ env (some p)

theorem dataConnectionGetDescriptorToSendTo_ports (controller : DataController) (env : CallEnv)
    (p : Pointer) :
    (dataConnectionGetDescriptorToSendTo controller env p).1.ports = controller.ports := by
  unfold dataConnectionGetDescriptorToSendTo
  dsimp only
  split_ifs
  · rfl
  · rfl

theorem dataControllerAddDescriptor_ports (controller : DataController) (env : CallEnv)
    (p : Pointer) (descriptor : ℕ) :
    (dataControllerAddDescriptor controller env p descriptor).1.ports = controller.ports := by
  unfold dataControllerAddDescriptor
  dsimp only
  split
  · split
    · rfl
    · rfl
  · split
    · rfl
    · rfl
  · rfl
  · rfl

theorem malloc_ports {controller' : DataController}
    (h : controller.malloc env = some (controller', p)) :
    controller'.ports = controller.ports := by
  unfold DataController.malloc at h
  split at h
  · cases h
  · split_ifs at h
    cases h
    rfl

theorem addConnection_releases {fill : DataConnection → DataConnection}
    {prepare : DataController → Pointer → DataController}
    (hprepare : ∀ controller p, Releases controller.ports (prepare controller p).ports) :
    Releases controller.ports (addConnection controller env fill prepare).1.ports := by
  unfold addConnection
  split
  · exact .refl _
  · rename_i controller' p hmalloc
    -- `malloc` has no part in the ports
    have hports := malloc_ports hmalloc
    split
    · rw [← hports]
      exact .refl _
    · rw [← hports]
      dsimp only
      split_ifs
      · exact hprepare (controller'.write p _) p
      · exact hprepare (controller'.write p _) p

theorem getDataConnectionForDataThreadOrAddPassive_releases (controller : DataController)
    (env : CallEnv) (portIndex : ℕ) :
    Releases controller.ports
      (getDataConnectionForDataThreadOrAddPassive controller env portIndex).1.ports := by
  have hassociate : ∀ (controller : DataController) p, Releases controller.ports
      { controller with ports := associatePort portIndex p controller.ports }.ports :=
    fun controller p => associatePort_releases portIndex p controller.ports
  unfold getDataConnectionForDataThreadOrAddPassive
  dsimp only
  split
  · exact .refl _
  · split
    · exact hassociate (controller.refresh env) _
    · exact addConnection_releases hassociate

theorem setupActive_ports (env : CallEnv) (controller : DataController) (p : Pointer)
    (addr : FTPConnectAddr) : (setupActive env controller p addr).1.ports = controller.ports := by
  unfold setupActive
  dsimp only
  split
  · rfl
  · rfl
  · rfl

theorem addWaiting_releases (controller : DataController) (env : CallEnv)
    (identifier : ConnectionTypeIdentifier) :
    Releases controller.ports (addWaiting controller env identifier).1.ports := by
  unfold addWaiting
  dsimp only
  split
  · rw [setupActive_ports]
    exact addConnection_releases fun controller _ => .refl _
  · exact addConnection_releases fun controller _ => .refl _

theorem getDataConnectionForControlThreadOrAdd_releases (controller : DataController)
    (env : CallEnv) (settings : FTPDataSettings) :
    Releases controller.ports
      (getDataConnectionForControlThreadOrAdd controller env settings).1.ports := by
  unfold getDataConnectionForControlThreadOrAdd
  dsimp only
  split_ifs
  · exact .refl _
  · split
    · exact .refl _
    · exact addWaiting_releases (controller.refresh env) env _

/-! ## What a control thread gets -/

theorem retrieve_identifier (env : CallEnv) (connection : DataConnection) :
    (retrieve env connection).1.identifier = connection.identifier := by
  unfold retrieve
  split
  all_goals rfl

theorem resume_identifier (env : CallEnv) (connection : DataConnection) (got : Bool) :
    (resume env connection got).1.identifier = connection.identifier := by
  unfold resume
  split
  · split
    all_goals rfl
  · rfl

theorem addConnection_memory {fill : DataConnection → DataConnection}
    (h : (addConnection controller env fill fun controller _ => controller).2 = some p) :
    ∃ old now, (addConnection controller env fill fun controller _ => controller).1.memory p =
      { fill old with lastChange := now } := by
  unfold addConnection at h ⊢
  split at h
  · cases h
  · rename_i controller' q _
    split at h
    · cases h
    · rename_i now _
      dsimp only at h
      split_ifs at h with hpush
      obtain rfl : q = p := Option.some.inj h
      refine ⟨controller'.memory q, now, ?_⟩
      dsimp only
      rw [if_pos hpush]
      exact Function.update_self ..

theorem setupActive_identifier {addr : FTPConnectAddr} {q : Pointer}
    (h : (setupActive env controller q addr).2 = some p) :
    ((setupActive env controller q addr).1.memory p).identifier =
      (controller.memory p).identifier := by
  unfold setupActive at h ⊢
  dsimp only at h ⊢
  split at h
  · cases h
  · cases h
  · obtain rfl : q = p := Option.some.inj h
    dsimp only [DataController.write]
    rw [Function.update_self]
    rfl

/-- A connection that is added is only returned at once in active mode. -/
theorem addWaiting_active {identifier : ConnectionTypeIdentifier}
    (h : (addWaiting controller env identifier).2 = some p) :
    ∃ addr, ((addWaiting controller env identifier).1.memory p).identifier = .active addr := by
  unfold addWaiting at h ⊢
  dsimp only at h ⊢
  split at h
  · rename_i q addr hadded
    obtain ⟨old, now, hmemory⟩ := addConnection_memory hadded
    -- a connection is only handed out when the connect succeeded at once
    have hq : q = p := by
      unfold setupActive at h
      dsimp only at h
      split at h
      · cases h
      · cases h
      · exact Option.some.inj h
    subst hq
    refine ⟨addr, ?_⟩
    rw [setupActive_identifier h, hmemory]
  · cases h

/-- **A passive connection that is returned is one on the port of the settings.** -/
theorem getDataConnectionForControlThreadOrAdd_identifier {port : UInt16}
    (h : (getDataConnectionForControlThreadOrAdd controller env settings).2 = some p)
    (hport : ((getDataConnectionForControlThreadOrAdd controller env settings).1.memory
      p).identifier = .passive port) :
    ∃ addr, settings = .passive ⟨addr, port⟩ := by
  have hsettings : ntsInternalConnIdentifierFromSettings settings = .passive port := by
    unfold getDataConnectionForControlThreadOrAdd at h hport
    dsimp only at h hport
    split_ifs at h hport
    split at h
    · rename_i q hfind
      rw [hfind] at hport
      have hq : q = p := by
        split_ifs at h
        exact Option.some.inj h
      subst hq
      dsimp only [DataController.write] at hport
      rw [Function.update_self, resume_identifier, retrieve_identifier] at hport
      -- the list was searched for the identifier of the settings
      have hfound := List.find?_some hfind
      rw [decide_eq_true_iff, hport] at hfound
      exact hfound.symm
    · rename_i hfind
      rw [hfind] at hport
      obtain ⟨addr, hactive⟩ := addWaiting_active h
      rw [hactive] at hport
      cases hport
  cases settings with
  | none => cases hsettings
  | active addr => cases hsettings
  | passive addr =>
    cases hsettings
    exact ⟨addr.addr, rfl⟩

end SimpleServer.Ftp
