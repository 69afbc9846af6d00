import SimpleServer.Ftp.Threads
import SimpleServer.Ftp.Calls

/-!
# Transfers (STOR, RETR and LIST in `ftp/server.c`)

How a transfer that has a data connection returns. Only RETR and LIST close it, and only when
everything was sent. STOR never does.

* `transferStep_controller`: to the data controller, a run of the server is a sequence of its
  calls.
-/

namespace SimpleServer.Ftp

inductive TransferCommand
  | stor
  | retr
  | list
deriving Repr, DecidableEq

/-- The returns of a transfer that has a data connection. -/
inductive TransferOutcome
  /-- The connection was there, but the client could not be told so. -/
  | replyNotSent
  /-- STOR gets no reader for the descriptor. -/
  | noReader
  | readError
  | writeError
  | unsupportedSendMode
  /-- There is nothing that RETR or LIST could send. -/
  | noData
  | sendError
  | success
deriving Repr, DecidableEq

/-- The operation of the control thread with which a transfer returns. -/
def transferReturn (session : ℕ) (env : CallEnv) : TransferCommand → TransferOutcome → ServerEvent
  | .retr, .success => .close session env
  | .list, .success => .close session env
  | _, _ => .finish session

/-- An event of the threads, in which the returns of transfers are told apart. -/
inductive TransferEvent
  | thread (e : ServerEvent)
  | returns (session : ℕ) (command : TransferCommand) (outcome : TransferOutcome) (env : CallEnv)

def transferStep (controlPort : UInt16) (server : FtpServer) : TransferEvent → FtpServer
  | .thread e => serverStep controlPort server e
  | .returns session command outcome env =>
    if outcome = .replyNotSent then
      match (server.sessions session).pc with
      | .retrieved _ => server.setPc session .ended
      | _ => server
    else serverStep controlPort server (transferReturn session env command outcome)

/-- The data connection that a transfer has when it returns. -/
def returned (server : FtpServer) : TransferEvent → Option Pointer
  | .thread (.finish session) | .thread (.close session _) =>
    match (server.sessions session).pc with
    | .sending connection => some connection
    | _ => none
  | .returns session _ outcome _ =>
    match (server.sessions session).pc with
    | .retrieved connection => if outcome = .replyNotSent then some connection else none
    | .sending connection => if outcome = .replyNotSent then none else some connection
    | _ => none
  | _ => none

/-! ## The calls of the controller -/

/-- The call of the controller that an event of the server makes. -/
def callOf (ports : List UInt16) (server : FtpServer) : ServerEvent → Option ControllerCall
  | .pasv session _ =>
    match (server.sessions session).pc with
    | .idle => some .getAvailablePort
    | _ => none
  | .transfer session env =>
    match (server.sessions session).pc, (server.sessions session).settings with
    | .idle, .none => none
    | .idle, _ => some (.toClose env)
    | _, _ => none
  | .ask session env =>
    match (server.sessions session).pc with
    | .asking => some (.forControlThread env (server.sessions session).settings)
    | _ => none
  | .getDescriptor session env =>
    match (server.sessions session).pc with
    | .retrieved connection => some (.getDescriptor env connection)
    | _ => none
  | .close session env =>
    match (server.sessions session).pc with
    | .sending connection => some (.close env connection)
    | _ => none
  | .start listener =>
    match server.listeners listener, ports[listener]? with
    | .starting, some port => some (.setPortAsAvailable listener port)
    | _, _ => none
  | .poll listener env =>
    match server.listeners listener with
    | .polling => some (.toClose env)
    | _ => none
  | .accept listener env =>
    match server.listeners listener with
    | .polling => some (.forDataThread env listener)
    | _ => none
  | .addDescriptor listener descriptor env =>
    match server.listeners listener with
    | .accepted connection => some (.addDescriptor env connection descriptor)
    | _ => none
  | .clean listener env =>
    match server.listeners listener with
    | .cleaning => some (.toClose env)
    | _ => none
  | .answer _ _ | .port _ _ | .giveUp _ | .finish _ => none

def transferCall (controlPort : UInt16) (server : FtpServer) :
    TransferEvent → Option ControllerCall
  | .thread e => callOf (passivePorts controlPort) server e
  | .returns session command outcome env =>
    if outcome = .replyNotSent then none
    else callOf (passivePorts controlPort) server (transferReturn session env command outcome)

/-- The controller after an optional call. -/
def afterCall (controller : DataController) : Option ControllerCall → DataController
  | none => controller
  | some call => controllerStep controller call

theorem controlStep_controller (ports : List UInt16) (server : FtpServer) (e : ServerEvent)
    (h : e.isListener = false) :
    (controlStep server e).controller = afterCall server.controller (callOf ports server e) := by
  cases e with
  | pasv session serverAddr =>
    dsimp only [controlStep, callOf]
    cases (server.sessions session).pc with
    | idle =>
      dsimp only
      unfold pasvReserve
      dsimp only
      split_ifs
      · rfl
      · rfl
    | _ => rfl
  | answer session result =>
    dsimp only [controlStep, callOf]
    cases (server.sessions session).pc with
    | answering addr =>
      cases result with
      | sent => rfl
      | noDescription => rfl
      | notSent => rfl
    | _ => rfl
  | port session addr =>
    dsimp only [controlStep, callOf]
    cases (server.sessions session).pc with
    | idle => rfl
    | _ => rfl
  | transfer session env =>
    dsimp only [controlStep, callOf]
    cases (server.sessions session).pc with
    | idle =>
      cases (server.sessions session).settings with
      | none => rfl
      | _ => rfl
    | _ => rfl
  | ask session env =>
    dsimp only [controlStep, callOf]
    cases (server.sessions session).pc with
    | asking =>
      dsimp only
      split
      · rfl
      · rfl
    | _ => rfl
  | giveUp session =>
    dsimp only [controlStep, callOf]
    cases (server.sessions session).pc with
    | asking => rfl
    | _ => rfl
  | getDescriptor session env =>
    dsimp only [controlStep, callOf]
    cases (server.sessions session).pc with
    | retrieved connection => rfl
    | _ => rfl
  | finish session =>
    dsimp only [controlStep, callOf]
    cases (server.sessions session).pc with
    | sending connection => rfl
    | _ => rfl
  | close session env =>
    dsimp only [controlStep, callOf]
    cases (server.sessions session).pc with
    | sending connection => rfl
    | _ => rfl
  | _ => cases h

theorem listenerStep_controller (ports : List UInt16) (server : FtpServer) (e : ServerEvent)
    (h : e.isListener = true) :
    (listenerStep ports server e).controller =
      afterCall server.controller (callOf ports server e) := by
  cases e with
  | start listener =>
    dsimp only [listenerStep, callOf]
    cases server.listeners listener with
    | starting =>
      cases ports[listener]? with
      | none => rfl
      | some port => rfl
    | _ => rfl
  | poll listener env =>
    dsimp only [listenerStep, callOf]
    cases server.listeners listener with
    | polling => rfl
    | _ => rfl
  | accept listener env =>
    dsimp only [listenerStep, callOf]
    cases server.listeners listener with
    | polling => rfl
    | _ => rfl
  | addDescriptor listener descriptor env =>
    dsimp only [listenerStep, callOf]
    cases server.listeners listener with
    | accepted connection => rfl
    | _ => rfl
  | clean listener env =>
    dsimp only [listenerStep, callOf]
    cases server.listeners listener with
    | cleaning => rfl
    | _ => rfl
  | _ => cases h

theorem serverStep_controller (controlPort : UInt16) (server : FtpServer) (e : ServerEvent) :
    (serverStep controlPort server e).controller =
      afterCall server.controller (callOf (passivePorts controlPort) server e) := by
  unfold serverStep
  split_ifs with hlistener
  · exact listenerStep_controller _ server e hlistener
  · exact controlStep_controller _ server e (by simpa using hlistener)

/-- **The server makes calls of the controller**, at most one with each event. -/
theorem transferStep_controller (controlPort : UInt16) (server : FtpServer) (e : TransferEvent) :
    (transferStep controlPort server e).controller =
      afterCall server.controller (transferCall controlPort server e) := by
  cases e with
  | thread e => exact serverStep_controller controlPort server e
  | returns session command outcome env =>
    dsimp only [transferStep, transferCall]
    by_cases hreply : outcome = .replyNotSent
    · rw [if_pos hreply, if_pos hreply]
      cases (server.sessions session).pc with
      | retrieved connection => rfl
      | _ => rfl
    · rw [if_neg hreply, if_neg hreply]
      exact serverStep_controller controlPort server _

end SimpleServer.Ftp
