import SimpleServer.Ftp.Data

/-!
# The threads that share the data connections

Every control thread runs the commands of one session, every listener thread waits for
clients on one passive port (`ftp_process_command` and `ftp_data_listener_thread_function` in
`ftp/server.c`). Between two operations of the controller any other thread may run, so an
event is one operation with what its thread does until the next one. Two
histories are kept beside: which session was last told which port, and which session still has
the port it reserved.

* `passivePorts_nodup`: the passive ports are different ports.
-/

namespace SimpleServer.Ftp

/-- `DEFAULT_PASSIVE_PORT_AMOUNT`. -/
def defaultPassivePortAmount : ℕ := 10

/-- The `i`th passive port, after the control port or, where there are no more, before it. -/
def passivePort (controlPort : UInt16) (i : ℕ) : UInt16 :=
  let nextPort := controlPort.toNat + 1 + i
  if 65535 < nextPort then
    -- the subtraction is one of `uint32_t`
    UInt16.ofNat ((controlPort.toNat + 2 ^ 32 - (nextPort - 65535)) % 2 ^ 32)
  else UInt16.ofNat nextPort

def passivePorts (controlPort : UInt16) : List UInt16 :=
  (List.range defaultPassivePortAmount).map (passivePort controlPort)

/-- Where a control thread is. -/
inductive ControlPc
  | idle
  /-- PASV has reserved a port and has not answered yet. -/
  | answering (addr : FTPConnectAddr)
  /-- A transfer has cleaned up and asks for its data connection. -/
  | asking
  | retrieved (connection : Pointer)
  | sending (connection : Pointer)
  | ended
deriving Repr, DecidableEq

structure ControlThread where
  settings : FTPDataSettings
  pc : ControlPc
deriving Repr, DecidableEq

/-- Where a listener thread is. -/
inductive ListenerPc
  | starting
  | polling
  | accepted (connection : Pointer)
  /-- The client has its connection, the clean-up follows. -/
  | cleaning
  | ended
deriving Repr, DecidableEq

structure FtpServer where
  controller : DataController
  sessions : ℕ → ControlThread
  listeners : ℕ → ListenerPc
  /-- The session that was last answered with a port. -/
  answered : UInt16 → Option ℕ
  /-- The session has reserved the port, and it was not released since. -/
  held : ℕ → UInt16 → Bool

inductive PasvAnswer
  | sent
  /-- `make_address_port_desc` failed, and the answer is an error. -/
  | noDescription
  | notSent
deriving Repr, DecidableEq

inductive ServerEvent
  | pasv (session : ℕ) (serverAddr : UInt32)
  | answer (session : ℕ) (result : PasvAnswer)
  | port (session : ℕ) (addr : FTPConnectAddr)
  /-- STOR, RETR or LIST gets to its clean-up. -/
  | transfer (session : ℕ) (env : CallEnv)
  | ask (session : ℕ) (env : CallEnv)
  /-- The transfer stops to wait. -/
  | giveUp (session : ℕ)
  | getDescriptor (session : ℕ) (env : CallEnv)
  /-- The transfer ends with its data connection open. -/
  | finish (session : ℕ)
  | close (session : ℕ) (env : CallEnv)
  | start (listener : ℕ)
  /-- Nobody connected for a while. -/
  | poll (listener : ℕ) (env : CallEnv)
  | accept (listener : ℕ) (env : CallEnv)
  | addDescriptor (listener : ℕ) (descriptor : ℕ) (env : CallEnv)
  | clean (listener : ℕ) (env : CallEnv)

/-- The server at its start; what the memory holds does not matter. -/
def startServer (memory : Pointer → DataConnection) : FtpServer :=
  { controller := initializeDataController defaultPassivePortAmount memory
    sessions := fun _ => ⟨.none, .idle⟩
    listeners := fun _ => .starting
    answered := fun _ => none
    held := fun _ _ => false }

def isReserved (ports : List PortMetadata) (port : UInt16) : Bool :=
  ports.any fun metadata => metadata.port == port && metadata.reserved

/-- The controller after an operation; a port that is not reserved is nobody's. -/
def FtpServer.withController (server : FtpServer) (controller : DataController) : FtpServer :=
  { server with
    controller := controller
    held := fun session port => server.held session port && isReserved controller.ports port }

def FtpServer.setSession (server : FtpServer) (session : ℕ) (thread : ControlThread) : FtpServer :=
  { server with sessions := Function.update server.sessions session thread }

def FtpServer.setPc (server : FtpServer) (session : ℕ) (pc : ControlPc) : FtpServer :=
  server.setSession session { server.sessions session with pc := pc }

def FtpServer.setHeld (server : FtpServer) (session : ℕ) (port : UInt16) (value : Bool) :
    FtpServer :=
  { server with
    held := Function.update server.held session
      (Function.update (server.held session) port value) }

def FtpServer.setListener (server : FtpServer) (listener : ℕ) (pc : ListenerPc) : FtpServer :=
  { server with listeners := Function.update server.listeners listener pc }

/-- `get_available_port_for_passive_mode` for PASV. -/
def pasvReserve (server : FtpServer) (session : ℕ) (serverAddr : UInt32) : FtpServer :=
  let result := getAvailablePortForPassiveMode server.controller
  let server := server.withController result.1
  if result.2 = 0 then server
  else
    (server.setPc session (.answering ⟨serverAddr, result.2⟩)).setHeld session result.2 true

/-- The answer of PASV; the settings are changed when it is out. -/
def pasvAnswer (server : FtpServer) (session : ℕ) (addr : FTPConnectAddr) :
    PasvAnswer → FtpServer
  | .sent =>
    { server.setSession session ⟨.passive addr, .idle⟩ with
      answered := Function.update server.answered addr.port (some session) }
  | .noDescription => (server.setPc session .idle).setHeld session addr.port false
  | .notSent => (server.setPc session .ended).setHeld session addr.port false

/-- What a session that asks is given. -/
def handedOut (server : FtpServer) (session : ℕ) (env : CallEnv) :
    DataController × Option Pointer :=
  getDataConnectionForControlThreadOrAdd server.controller env (server.sessions session).settings

/-- The operations of the control threads. -/
def controlStep (server : FtpServer) : ServerEvent → FtpServer
  | .pasv session serverAddr =>
    match (server.sessions session).pc with
    | .idle => pasvReserve server session serverAddr
    | _ => server
  | .answer session result =>
    match (server.sessions session).pc with
    | .answering addr => pasvAnswer server session addr result
    | _ => server
  | .port session addr =>
    match (server.sessions session).pc with
    | .idle => server.setSession session ⟨.active addr, .idle⟩
    | _ => server
  | .transfer session env =>
    match (server.sessions session).pc, (server.sessions session).settings with
    | .idle, .none => server
    | .idle, _ =>
      (server.withController (dataConnectionsToClose server.controller env).1).setPc session .asking
    | _, _ => server
  | .ask session env =>
    match (server.sessions session).pc with
    | .asking =>
      let result := handedOut server session env
      let server := server.withController result.1
      match result.2 with
      | none => server
      | some connection => server.setPc session (.retrieved connection)
    | _ => server
  | .giveUp session =>
    match (server.sessions session).pc with
    | .asking => server.setPc session .idle
    | _ => server
  | .getDescriptor session env =>
    match (server.sessions session).pc with
    | .retrieved connection =>
      let result := dataConnectionGetDescriptorToSendTo server.controller env connection
      (server.withController result.1).setPc session (.sending connection)
    | _ => server
  | .finish session =>
    match (server.sessions session).pc with
    | .sending _ => server.setPc session .idle
    | _ => server
  | .close session env =>
    match (server.sessions session).pc with
    | .sending connection =>
      let result := dataConnectionClose server.controller env connection
      (server.withController result.1).setPc session .idle
    | _ => server
  | _ => server

/-- The operations of the listener threads. -/
def listenerStep (ports : List UInt16) (server : FtpServer) : ServerEvent → FtpServer
  | .start listener =>
    match server.listeners listener, ports[listener]? with
    | .starting, some port =>
      let result := dataConnectionSetPortAsAvailable server.controller listener port
      (server.withController result.1).setListener listener
        (if result.2 then .polling else .ended)
    | _, _ => server
  | .poll listener env =>
    match server.listeners listener with
    | .polling => server.withController (dataConnectionsToClose server.controller env).1
    | _ => server
  | .accept listener env =>
    match server.listeners listener with
    | .polling =>
      let result := getDataConnectionForDataThreadOrAddPassive server.controller env listener
      (server.withController result.1).setListener listener
        (match result.2 with
          | none => .ended
          | some connection => .accepted connection)
    | _ => server
  | .addDescriptor listener descriptor env =>
    match server.listeners listener with
    | .accepted connection =>
      let result := dataControllerAddDescriptor server.controller env connection descriptor
      (server.withController result.1).setListener listener
        (if result.2 then .cleaning else .ended)
    | _ => server
  | .clean listener env =>
    match server.listeners listener with
    | .cleaning =>
      (server.withController (dataConnectionsToClose server.controller env).1).setListener listener
        .polling
    | _ => server
  | _ => server

def ServerEvent.isListener : ServerEvent → Bool
  | .start _ => true
  | .poll _ _ => true
  | .accept _ _ => true
  | .addDescriptor _ _ _ => true
  | .clean _ _ => true
  | _ => false

def serverStep (controlPort : UInt16) (server : FtpServer) (e : ServerEvent) : FtpServer :=
  if e.isListener then listenerStep (passivePorts controlPort) server e
  else controlStep server e

/-! ## The passive ports -/

theorem passivePort_toNat (controlPort : UInt16) {i : ℕ} (hi : i < defaultPassivePortAmount) :
    (passivePort controlPort i).toNat =
      if 65535 < controlPort.toNat + 1 + i then 65534 - i else controlPort.toNat + 1 + i := by
  have hi : i < 10 := hi
  have hcontrol := controlPort.toNat_lt
  unfold passivePort
  dsimp only
  split_ifs with hnext
  · have hport : (controlPort.toNat + 2 ^ 32 - (controlPort.toNat + 1 + i - 65535)) % 2 ^ 32 =
        65534 - i := by omega
    rw [hport, UInt16.toNat_ofNat']
    omega
  · rw [UInt16.toNat_ofNat']
    omega

/-- **The passive ports are different.** -/
theorem passivePorts_nodup (controlPort : UInt16) : (passivePorts controlPort).Nodup := by
  refine List.Nodup.map_on ?_ List.nodup_range
  intro i hi j hj heq
  have hi : i < defaultPassivePortAmount := List.mem_range.1 hi
  have hj : j < defaultPassivePortAmount := List.mem_range.1 hj
  have hnat := congrArg UInt16.toNat heq
  rw [passivePort_toNat controlPort hi, passivePort_toNat controlPort hj] at hnat
  have hi : i < 10 := hi
  have hj : j < 10 := hj
  -- two ports after the control port, two before it, or one of each
  split_ifs at hnat
  all_goals omega

end SimpleServer.Ftp
