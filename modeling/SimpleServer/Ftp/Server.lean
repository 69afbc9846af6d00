import SimpleServer.Ftp.FileOps

/-!
# The commands of an FTP session (`ftp_process_command` in `ftp/server.c`)

A command is handled with the state of its session and with what it meets outside: the
authentication providers, the file system, the clock and the data connection. It returns
the new state, what it did in order, and whether the session goes on.

* `ftpProcessCommand_none`, `ftpProcessCommand_some`: what a command does to files.
* `ftpProcessCommand_same`, `ftpProcessCommand_directory`: what it does to the folders.
* `ftpProcessCommand_account`: only USER and PASS change the account.
-/

namespace SimpleServer.Ftp

open Utils

inductive FtpReturnCode
  | dataConnectionAlreadyOpen
  | dataConnectionWaitingForOpen
  | cmdOk
  | featureList
  | systemName
  | closingDataConnectionReqOk
  | enteringPassiveMode
  | userLoggedIn
  | fileActionOk
  | dirOpSucc
  | needPswd
  | dataConnectionOpenError
  | fileActionNotTaken
  | fileActionAborted
  | syntaxError
  | commandNotImplemented
  | badSequence
  | commandNotImplementedForParam
  | notLoggedIn
  | fileActionNotTakenFatal
deriving Repr, DecidableEq

/-- `FtpCommandTypeInformation`. -/
inductive FtpCommandTypeInformation
  | normal (type : ℕ)
  | other
deriving Repr, DecidableEq

/-- The commands `ftp_process_command` has a case for; `other` are those it answers with
"Command not implemented!". -/
inductive FTPCommand
  | user (name : Bytes)
  | pass (password : Bytes)
  | pwd
  | cwd (directory : Bytes)
  | cdup
  | pasv
  | feat
  | port (info : FTPConnectAddr)
  | stor (file : Bytes)
  | retr (file : Bytes)
  | list (file : Option Bytes)
  | type (info : FtpCommandTypeInformation)
  | auth (mechanism : Bytes)
  | syst
  | noop
  | other
deriving Repr, DecidableEq

/-- What a command does, in order. -/
inductive FtpAction
  | reply (code : FtpReturnCode) (text : Bytes)
  /-- `resolve_path_in_cwd` returned this path. -/
  | resolved (path : Bytes)
  /-- `get_data_to_send_for_retr`. -/
  | readFile (path : Bytes)
  /-- `get_data_to_send_for_list`. -/
  | listPath (path : Bytes)
  /-- `write_to_file`. -/
  | writeToFile (path : Bytes) (data : Bytes)
deriving Repr, DecidableEq

inductive StatResult
  | folder
  | file
  | noEntry
  | failed
deriving Repr, DecidableEq

/-- How a round of waiting for the data connection ends. -/
inductive WaitRound
  | sleepFailed
  | clockFailed
  | timedOut
  | notYet
  | established
deriving Repr, DecidableEq

/-- What a command meets outside of its session. -/
structure CommandEnv where
  /-- `account_verify`. -/
  accountVerify : Bytes → Bytes → UserValidity
  serverAddr : UInt32
  /-- `get_available_port_for_passive_mode`. -/
  passivePort : UInt16
  /-- `make_address_port_desc`. -/
  portDesc : Option Bytes
  stat : Bytes → StatResult
  access : Bytes → Bool
  /-- The data connection is there when it is first asked for. -/
  connectionAtOnce : Bool
  startClock : Bool
  rounds : List WaitRound
  /-- What STOR reads from the data connection, if that succeeds. -/
  received : Option Bytes
  writeToFile : Bool
  /-- The data of RETR and LIST could be collected, sent, and the connection be closed. -/
  dataToSend : Bool
  sendData : Bool
  closeConnection : Bool
  /-- The first and the second reply of the command can be written. -/
  sendResponse : ℕ → Bool

/-- A quiet server: nobody is known, the file system is empty, and there are no data
connections. -/
def quietEnv : CommandEnv where
  accountVerify _ _ := .noSuchUser
  serverAddr := 0
  passivePort := 0
  portDesc := none
  stat _ := .noEntry
  access _ := false
  connectionAtOnce := false
  startClock := true
  rounds := []
  received := none
  writeToFile := false
  dataToSend := false
  sendData := false
  closeConnection := false
  sendResponse _ := true

structure Handled where
  state : FTPState
  actions : List FtpAction
  /-- What `ftp_process_command` returns: the session goes on. -/
  alive : Bool

/-- `SEND_RESPONSE_WITH_ERROR_CHECK` and `return true`, after the given actions, among them `n`
replies. -/
def respond (env : CommandEnv) (n : ℕ) (state : FTPState) (done : List FtpAction)
    (code : FtpReturnCode) (text : Bytes) : Handled :=
  ⟨state, done ++ [.reply code text], env.sendResponse n⟩

/-- A command that only answers. -/
def respondOnly (env : CommandEnv) (state : FTPState) (code : FtpReturnCode) (text : String) :
    Handled :=
  respond env 0 state [] code (ascii text)

/-- `ANON_USERNAME`. -/
def anonUsername : Bytes := ascii "anonymous"

/-! ## Logging in -/

def processUser (env : CommandEnv) (state : FTPState) (arg : Bytes) : Handled :=
  if eqIgnoreCase arg anonUsername then
    respondOnly env { state with account := .ok .read arg } .userLoggedIn "Logged In as anon!"
  else
    respondOnly env { state with account := .onlyUser arg } .needPswd "Need Password!"

/-- PASS for an account that has only a user. -/
def verifyUser (env : CommandEnv) (state : FTPState) (username passwd : Bytes) : Handled :=
  match env.accountVerify username passwd with
  | .ok =>
    respondOnly env { state with account := .ok .readWrite username } .userLoggedIn
      "Logged In as user!"
  | .noSuchUser =>
    respondOnly env { state with account := .empty } .notLoggedIn "No such user found!"
  | .wrongPassword =>
    respondOnly env { state with account := .empty } .notLoggedIn "Wrong password!"
  | .internalError =>
    respondOnly env { state with account := .empty } .notLoggedIn "Internal Error!"

def processPass (env : CommandEnv) (state : FTPState) (arg : Bytes) : Handled :=
  match state.account with
  | .ok _ username =>
    if eqIgnoreCase username anonUsername then
      respondOnly env state .userLoggedIn "Already logged in as anon!"
    else
      respondOnly env { state with account := .empty } .badSequence "No user specified!"
  | .empty => respondOnly env { state with account := .empty } .badSequence "No user specified!"
  | .onlyUser username => verifyUser env state username arg

/-! ## The current directory -/

def notLoggedInForFiles (env : CommandEnv) (state : FTPState) : Handled :=
  respondOnly env state .notLoggedIn "Not logged in: can't access files!"

def processPwd (env : CommandEnv) (state : FTPState) : Handled :=
  if ¬ state.account.isOk then notLoggedInForFiles env state
  else
    match getCurrentDirNameRelativeToFtpRoot state true with
    | none => respondOnly env state .syntaxError "Internal Error!"
    | some dirname =>
      respond env 0 state [] .dirOpSucc
        (ascii "\"" ++ dirname ++ ascii "\" is the current directory")

/-- CWD and CDUP, which only differ in the directory and in the code of a success. -/
def changeDirectory (cwk : Cwalk) (env : CommandEnv) (state : FTPState) (code : FtpReturnCode)
    (directory : Bytes) : Handled :=
  if ¬ state.account.isOk then notLoggedInForFiles env state
  else
    match changeDirnameTo cwk state directory with
    | (state, .errorPathTraversal) =>
      respondOnly env state .fileActionNotTakenFatal "Path traversal detected, aborting!"
    | (state, .noSuchDir) =>
      respondOnly env state .fileActionNotTakenFatal "No such directory!"
    | (state, .error) =>
      respondOnly env state .fileActionNotTakenFatal "An unknown error occurred!"
    | (state, .ok) =>
      match getCurrentDirNameRelativeToFtpRoot state true with
      | none => respondOnly env state .syntaxError "Internal Error!"
      | some dirname =>
        respond env 0 state [] code (ascii "directory changed to \"" ++ dirname ++ ascii "\"")

def processCwd (cwk : Cwalk) (env : CommandEnv) (state : FTPState) (arg : Bytes) : Handled :=
  changeDirectory cwk env state .fileActionOk (cString arg)

def processCdup (cwk : Cwalk) (env : CommandEnv) (state : FTPState) : Handled :=
  changeDirectory cwk env state .cmdOk (ascii "..")

/-! ## The data connection -/

def processPasv (env : CommandEnv) (state : FTPState) : Handled :=
  if env.passivePort = 0 then
    respondOnly env state .commandNotImplemented
      "Not entering passive mode. The server has no available ports left, try again later."
  else
    match env.portDesc with
    | none => respondOnly env state .syntaxError "Internal Error!"
    | some portDesc =>
      -- the settings are only changed when the answer is out
      if env.sendResponse 0 then
        respond env 0
          { state with dataSettings := .passive ⟨env.serverAddr, env.passivePort⟩ } []
          .enteringPassiveMode (ascii "Entering Passive Mode " ++ portDesc ++ ascii ".")
      else
        respond env 0 state [] .enteringPassiveMode
          (ascii "Entering Passive Mode " ++ portDesc ++ ascii ".")

def processPort (env : CommandEnv) (state : FTPState) (info : FTPConnectAddr) : Handled :=
  respondOnly env { state with dataSettings := .active info } .cmdOk "Entering active mode"

/-- The texts in which the waiting of STOR, RETR and LIST differs. -/
structure WaitErrors where
  startClock : String
  sleep : String
  clock : String

/-- The loop that waits for the data connection; it ends at the latest with its time-out. -/
def waitLoop : List WaitRound → WaitRound
  | [] => .timedOut
  | .notYet :: rounds => waitLoop rounds
  | round :: _ => round

/-- Asks for the data connection and waits for it. The actions so far when it is there, or the
handled command when it is not. -/
def awaitDataConnection (env : CommandEnv) (state : FTPState) (done : List FtpAction)
    (errors : WaitErrors) : Except Handled (List FtpAction) :=
  if env.connectionAtOnce then
    let done := done ++ [.reply .dataConnectionAlreadyOpen (ascii "Ok. Sending data")]
    if env.sendResponse 0 then .ok done else .error ⟨state, done, false⟩
  else
    let done := done ++
      [.reply .dataConnectionWaitingForOpen (ascii "Ok. Waiting for data connection")]
    if ¬ env.sendResponse 0 then .error ⟨state, done, false⟩
    else if ¬ env.startClock then
      .error (respond env 1 state done .fileActionNotTaken (ascii errors.startClock))
    else
      match waitLoop env.rounds with
      | .established => .ok done
      | .sleepFailed =>
        .error (respond env 1 state done .fileActionNotTaken (ascii errors.sleep))
      | .clockFailed =>
        .error (respond env 1 state done .fileActionNotTaken (ascii errors.clock))
      | .timedOut | .notYet =>
        .error (respond env 1 state done .dataConnectionOpenError
          (ascii "Timeout on waiting for data connection"))

/-- The session can transfer files, and this is the path the argument names. -/
def resolveForTransfer (cwk : Cwalk) (env : CommandEnv) (state : FTPState) (arg : Bytes)
    (notLoggedIn : String) : Except Handled Bytes :=
  if ¬ state.account.isOk then .error (respondOnly env state .notLoggedIn notLoggedIn)
  else if state.dataSettings = .none then
    .error (respondOnly env state .fileActionNotTaken
      "No data conenction mode specified, specify either PASSIVE or ACTIVE")
  else
    match resolvePathInCwd cwk state (cString arg) with
    | none => .error (respondOnly env state .fileActionNotTaken "Path resolve error")
    | some path => .ok path

/-- A file command that ends after the path was resolved. -/
def refuse (env : CommandEnv) (state : FTPState) (path : Bytes) (text : String) : Handled :=
  respond env 0 state [.resolved path] .fileActionNotTaken (ascii text)

/-! ## Storing -/

/-- STOR once the data connection is there. -/
def storeData (env : CommandEnv) (state : FTPState) (path : Bytes) (done : List FtpAction) :
    Handled :=
  match env.received with
  | none => respond env 1 state done .fileActionNotTaken (ascii "Internal error 5")
  | some data =>
    let done := done ++ [.writeToFile path data]
    if ¬ env.writeToFile then
      respond env 1 state done .fileActionNotTaken (ascii "Internal error 6")
    else
      respond env 1 state done .closingDataConnectionReqOk
        (ascii "Success. Closing Data Connection")

def processStor (cwk : Cwalk) (env : CommandEnv) (state : FTPState) (arg : Bytes) : Handled :=
  -- the check of the write permission is commented out
  match resolveForTransfer cwk env state arg "Not logged in: can't upload files!" with
  | .error handled => handled
  | .ok path =>
    match env.stat path with
    | .failed => refuse env state path "Internal error 1"
    | .folder => refuse env state path "Can't overwrite a folder"
    | .file | .noEntry =>
      match awaitDataConnection env state [.resolved path]
          ⟨"Internal error 2", "Internal error 3", "Internal error 4"⟩ with
      | .error handled => handled
      | .ok done => storeData env state path done

/-! ## Sending -/

/-- RETR and LIST once the data connection is there: `collect` is the access to the file. -/
def sendCollected (env : CommandEnv) (state : FTPState) (done : List FtpAction)
    (collect : FtpAction) (noData notClosed : String) : Handled :=
  -- the file is only looked at when the send mode is supported
  if getCurrentSendMode state = .unsupported then
    respond env 1 state done .fileActionAborted (ascii "Unsupported send mode")
  else
    let done := done ++ [collect]
    if ¬ env.dataToSend then respond env 1 state done .fileActionAborted (ascii noData)
    else if ¬ env.sendData then
      respond env 1 state done .fileActionAborted (ascii "Internal send error")
    else if ¬ env.closeConnection then
      respond env 1 state done .fileActionAborted (ascii notClosed)
    else
      respond env 1 state done .closingDataConnectionReqOk
        (ascii "Success. Closing Data Connection")

def processRetr (cwk : Cwalk) (env : CommandEnv) (state : FTPState) (arg : Bytes) : Handled :=
  match resolveForTransfer cwk env state arg "Not logged in: can't access files!" with
  | .error handled => handled
  | .ok path =>
    match env.stat path with
    | .noEntry => refuse env state path "No such file / dir"
    | .failed => refuse env state path "Internal error 7"
    | .folder => refuse env state path "Can't RETR a folder"
    | .file =>
      if ¬ env.access path then refuse env state path "Access to file denied"
      else
        match awaitDataConnection env state [.resolved path]
            ⟨"Internal error 8", "Internal error 9", "Internal error 10"⟩ with
        | .error handled => handled
        | .ok done =>
          sendCollected env state done (.readFile path) "Internal error 12" "Internal error 13"

/-- LIST of a path that `stat` found. -/
def listFound (env : CommandEnv) (state : FTPState) (path : Bytes) (fileType : String) :
    Handled :=
  if ¬ env.access path then refuse env state path ("Access to " ++ fileType ++ " denied")
  else
    match awaitDataConnection env state [.resolved path]
        ⟨"Internal error 15", "Internal error 16", "Internal  17"⟩ with
    | .error handled => handled
    | .ok done =>
      sendCollected env state done (.listPath path) "Internal error 18" "Internal error 19"

def processList (cwk : Cwalk) (env : CommandEnv) (state : FTPState) (arg : Option Bytes) :
    Handled :=
  match resolveForTransfer cwk env state (arg.getD (ascii "."))
      "Not logged in: can't access files!" with
  | .error handled => handled
  | .ok path =>
    match env.stat path with
    | .noEntry => refuse env state path "No such file / dir"
    | .failed => refuse env state path "Internal error 14"
    | .folder => listFound env state path "folder"
    | .file => listFound env state path "file"

/-! ## All commands -/

def processType (env : CommandEnv) (state : FTPState) : FtpCommandTypeInformation → Handled
  | .other => respondOnly env state .commandNotImplementedForParam "Not Implemented!"
  | .normal type =>
    let base := type &&& transmissionTypeMaskBase
    if base = transmissionTypeAscii then
      { respondOnly env state .syntaxError "ASCII type not supported atm!" with alive := false }
    else if base = transmissionTypeEbcdic then
      { respondOnly env state .syntaxError "EBCDIC type not supported atm!" with alive := false }
    else if base = transmissionTypeImage then
      respondOnly env { state with currentType := transmissionTypeImage } .cmdOk
        "Set Type To Binary!"
    else respondOnly env state .syntaxError "Internal ERROR!"

def ftpProcessCommand (cwk : Cwalk) (env : CommandEnv) (state : FTPState) :
    FTPCommand → Handled
  | .user arg => processUser env state arg
  | .pass arg => processPass env state arg
  | .pwd => processPwd env state
  | .cwd arg => processCwd cwk env state arg
  | .cdup => processCdup cwk env state
  | .pasv => processPasv env state
  | .feat => respondOnly env state .featureList "No additional features supported"
  | .port info => processPort env state info
  | .stor arg => processStor cwk env state arg
  | .retr arg => processRetr cwk env state arg
  | .list arg => processList cwk env state arg
  | .type info => processType env state info
  | .auth _ =>
    respondOnly env state .commandNotImplemented "AUTH recognized, but command not implemented!"
  | .syst => respondOnly env state .systemName "UNIX Type: L8 Version: Linux"
  | .noop => respondOnly env state .cmdOk ""
  | .other => respondOnly env state .commandNotImplemented "Command not implemented!"

/-- A command with what it meets. -/
structure Issued where
  command : FTPCommand
  env : CommandEnv

/-- A session: its state, and whether its command loop goes on. -/
structure Session where
  state : FTPState
  alive : Bool

/-- The session of a new control connection. -/
def startSession (globalFolder : Bytes) : Session := ⟨defaultState globalFolder, true⟩

/-- One round of the command loop. -/
def sessionStep (cwk : Cwalk) (session : Session) (issued : Issued) : Session :=
  if session.alive then
    let handled := ftpProcessCommand cwk issued.env session.state issued.command
    ⟨handled.state, handled.alive⟩
  else session

/-- What a round does. -/
def sessionActions (cwk : Cwalk) (session : Session) (issued : Issued) : List FtpAction :=
  if session.alive then
    (ftpProcessCommand cwk issued.env session.state issued.command).actions
  else []

/-! ## What commands do -/

def FtpAction.isReply : FtpAction → Bool
  | .reply _ _ => true
  | _ => false

/-- The file a transfer is about, if the session gets to resolve it. -/
def transferTarget (cwk : Cwalk) (state : FTPState) (arg : Bytes) : Option Bytes :=
  if state.account.isOk = true ∧ state.dataSettings ≠ .none then
    resolvePathInCwd cwk state (cString arg)
  else none

/-- What a transfer does: it leaves the state alone, resolves its path, and apart from replies
only has the given effects on it. -/
structure Transfers (state : FTPState) (target : Option Bytes) (effect : Bytes → FtpAction → Prop)
    (handled : Handled) : Prop where
  state : handled.state = state
  none : target = none → ∀ a ∈ handled.actions, a.isReply = true
  some : ∀ path, target = some path → ∃ rest, handled.actions = .resolved path :: rest ∧
    ∀ a ∈ rest, a.isReply = true ∨ effect path a

variable {cwk : Cwalk} {env : CommandEnv} {state : FTPState} {arg path : Bytes}
  {effect : Bytes → FtpAction → Prop} {notLoggedIn : String}

theorem resolveForTransfer_ok
    (h : resolveForTransfer cwk env state arg notLoggedIn = .ok path) :
    transferTarget cwk state arg = some path := by
  unfold resolveForTransfer at h
  unfold transferTarget
  split_ifs at h with hok hmode
  split at h
  · cases h
  · rename_i p hp
    cases h
    rw [if_pos ⟨hok, hmode⟩, hp]

theorem resolveForTransfer_error (effect : Bytes → FtpAction → Prop) {handled : Handled}
    (h : resolveForTransfer cwk env state arg notLoggedIn = .error handled) :
    transferTarget cwk state arg = none ∧ Transfers state none effect handled := by
  have hreply : ∀ code text, Transfers state none effect (respondOnly env state code text) := by
    intro code text
    refine ⟨rfl, fun _ a ha => ?_, nofun⟩
    rw [respondOnly, respond, List.nil_append] at ha
    rw [List.mem_singleton.1 ha]
    rfl
  unfold resolveForTransfer at h
  unfold transferTarget
  split_ifs at h with hok hmode
  · cases h
    exact ⟨if_neg fun hboth => hboth.2 hmode, hreply _ _⟩
  · split at h
    · rename_i hp
      cases h
      exact ⟨by rw [if_pos ⟨hok, hmode⟩, hp], hreply _ _⟩
    · cases h
  · cases h
    exact ⟨if_neg fun hboth => hok hboth.1, hreply _ _⟩

/-- The actions so far are those on the path, with replies and effects. -/
def OnPath (path : Bytes) (effect : Bytes → FtpAction → Prop) (actions : List FtpAction) : Prop :=
  ∃ rest, actions = .resolved path :: rest ∧ ∀ a ∈ rest, a.isReply = true ∨ effect path a

theorem OnPath.append {actions : List FtpAction} (h : OnPath path effect actions) {a : FtpAction}
    (ha : a.isReply = true ∨ effect path a) : OnPath path effect (actions ++ [a]) := by
  obtain ⟨rest, rfl, hrest⟩ := h
  refine ⟨rest ++ [a], rfl, fun b hb => ?_⟩
  rcases List.mem_append.1 hb with hb | hb
  · exact hrest b hb
  · rw [List.mem_singleton.1 hb]
    exact ha

theorem OnPath.transfers {handled : Handled} (hstate : handled.state = state)
    (h : OnPath path effect handled.actions) : Transfers state (.some path) effect handled := by
  refine ⟨hstate, nofun, fun p hp => ?_⟩
  obtain rfl : path = p := Option.some.inj hp
  exact h

theorem OnPath.respond {done : List FtpAction} (h : OnPath path effect done) (n : ℕ)
    (code : FtpReturnCode) (text : Bytes) :
    Transfers state (.some path) effect (respond env n state done code text) :=
  OnPath.transfers rfl (h.append (.inl rfl))

theorem awaitDataConnection_ok {done done' : List FtpAction} {errors : WaitErrors}
    (h : OnPath path effect done) (hawait : awaitDataConnection env state done errors = .ok done') :
    OnPath path effect done' := by
  unfold awaitDataConnection at hawait
  dsimp only at hawait
  split_ifs at hawait
  · cases hawait
    exact h.append (.inl rfl)
  · split at hawait
    · cases hawait
      exact h.append (.inl rfl)
    all_goals cases hawait

theorem awaitDataConnection_error {done : List FtpAction} {errors : WaitErrors} {handled : Handled}
    (h : OnPath path effect done)
    (hawait : awaitDataConnection env state done errors = .error handled) :
    Transfers state (.some path) effect handled := by
  -- the first reply is out in every case, the error is the second one
  have hfirst : ∀ code text, OnPath path effect (done ++ [.reply code text]) :=
    fun code text => h.append (.inl rfl)
  unfold awaitDataConnection at hawait
  dsimp only at hawait
  split_ifs at hawait
  · cases hawait
    exact OnPath.transfers rfl (hfirst _ _)
  · split at hawait
    · cases hawait
    all_goals
      cases hawait
      exact (hfirst _ _).respond 1 _ _
  · cases hawait
    exact (hfirst _ _).respond 1 _ _
  · cases hawait
    exact OnPath.transfers rfl (hfirst _ _)

theorem onPath_resolved (path : Bytes) (effect : Bytes → FtpAction → Prop) :
    OnPath path effect [.resolved path] := ⟨[], rfl, nofun⟩

theorem refuse_transfers (text : String) :
    Transfers state (.some path) effect (refuse env state path text) :=
  (onPath_resolved path effect).respond 0 _ _

/-- The effect of STOR. -/
def Writes (path : Bytes) (a : FtpAction) : Prop := ∃ data, a = .writeToFile path data

theorem storeData_transfers {done : List FtpAction} (h : OnPath path Writes done) :
    Transfers state (.some path) Writes (storeData env state path done) := by
  unfold storeData
  split
  · exact h.respond 1 _ _
  · rename_i data _
    have hwrite : OnPath path Writes (done ++ [.writeToFile path data]) :=
      h.append (.inr ⟨data, rfl⟩)
    dsimp only
    split_ifs
    · exact hwrite.respond 1 _ _
    · exact hwrite.respond 1 _ _

theorem processStor_transfers (cwk : Cwalk) (env : CommandEnv) (state : FTPState) (arg : Bytes) :
    Transfers state (transferTarget cwk state arg) Writes (processStor cwk env state arg) := by
  unfold processStor
  split
  · rename_i handled herr
    obtain ⟨htarget, h⟩ := resolveForTransfer_error Writes herr
    rwa [htarget]
  · rename_i path hok
    rw [resolveForTransfer_ok hok]
    split
    · exact refuse_transfers _
    · exact refuse_transfers _
    all_goals
      split
      · rename_i handled hawait
        exact awaitDataConnection_error (onPath_resolved path Writes) hawait
      · rename_i done hawait
        exact storeData_transfers (awaitDataConnection_ok (onPath_resolved path Writes) hawait)

theorem sendCollected_transfers {done : List FtpAction} {collect : FtpAction}
    {noData notClosed : String} (h : OnPath path effect done) (hcollect : effect path collect) :
    Transfers state (.some path) effect
      (sendCollected env state done collect noData notClosed) := by
  have hnext : OnPath path effect (done ++ [collect]) := h.append (.inr hcollect)
  unfold sendCollected
  dsimp only
  split_ifs
  · exact h.respond 1 _ _
  all_goals exact hnext.respond 1 _ _

/-- The effect of RETR. -/
def Reads (path : Bytes) (a : FtpAction) : Prop := a = .readFile path

theorem processRetr_transfers (cwk : Cwalk) (env : CommandEnv) (state : FTPState) (arg : Bytes) :
    Transfers state (transferTarget cwk state arg) Reads (processRetr cwk env state arg) := by
  unfold processRetr
  split
  · rename_i handled herr
    obtain ⟨htarget, h⟩ := resolveForTransfer_error Reads herr
    rwa [htarget]
  · rename_i path hok
    rw [resolveForTransfer_ok hok]
    split
    · exact refuse_transfers _
    · exact refuse_transfers _
    · exact refuse_transfers _
    · split_ifs
      · split
        · rename_i handled hawait
          exact awaitDataConnection_error (onPath_resolved path Reads) hawait
        · rename_i done hawait
          exact sendCollected_transfers
            (awaitDataConnection_ok (onPath_resolved path Reads) hawait) rfl
      · exact refuse_transfers _

/-- The effect of LIST. -/
def Lists (path : Bytes) (a : FtpAction) : Prop := a = .listPath path

theorem listFound_transfers (fileType : String) :
    Transfers state (.some path) Lists (listFound env state path fileType) := by
  unfold listFound
  split_ifs
  · split
    · rename_i handled hawait
      exact awaitDataConnection_error (onPath_resolved path Lists) hawait
    · rename_i done hawait
      exact sendCollected_transfers
        (awaitDataConnection_ok (onPath_resolved path Lists) hawait) rfl
  · exact refuse_transfers _

theorem processList_transfers (cwk : Cwalk) (env : CommandEnv) (state : FTPState)
    (arg : Option Bytes) :
    Transfers state (transferTarget cwk state (arg.getD (ascii "."))) Lists
      (processList cwk env state arg) := by
  unfold processList
  split
  · rename_i handled herr
    obtain ⟨htarget, h⟩ := resolveForTransfer_error Lists herr
    rwa [htarget]
  · rename_i path hok
    rw [resolveForTransfer_ok hok]
    split
    · exact refuse_transfers _
    · exact refuse_transfers _
    · exact listFound_transfers _
    · exact listFound_transfers _

/-! ## What one command can do -/

/-- The path argument of STOR, RETR and LIST. -/
def transferArgument : FTPCommand → Option Bytes
  | .stor arg => some arg
  | .retr arg => some arg
  | .list arg => some (arg.getD (ascii "."))
  | _ => none

/-- The file a command is about, if it gets to resolve one. -/
def commandTarget (cwk : Cwalk) (state : FTPState) (command : FTPCommand) : Option Bytes :=
  (transferArgument command).bind (transferTarget cwk state)

/-- The access to files that is the purpose of a command. -/
def effectOf : FTPCommand → Bytes → FtpAction → Prop
  | .stor _ => Writes
  | .retr _ => Reads
  | .list _ => Lists
  | _ => fun _ _ => False

/-- The directory CWD and CDUP change to. -/
def directoryArgument : FTPCommand → Option Bytes
  | .cwd arg => some (cString arg)
  | .cdup => some (ascii "..")
  | _ => none

variable {command : FTPCommand} {a : FtpAction}

theorem reply_only {handled : Handled} {code : FtpReturnCode} {text : Bytes}
    (h : handled.actions = [.reply code text]) : ∀ a ∈ handled.actions, a.isReply = true := by
  intro a ha
  rw [h] at ha
  rw [List.mem_singleton.1 ha]
  rfl

theorem changeDirectory_actions (code : FtpReturnCode) (directory : Bytes) :
    ∀ a ∈ (changeDirectory cwk env state code directory).actions, a.isReply = true := by
  unfold changeDirectory
  split_ifs
  · split
    all_goals try exact reply_only rfl
    split
    all_goals exact reply_only rfl
  · exact reply_only rfl

theorem changeDirectory_state (code : FtpReturnCode) (directory : Bytes) :
    (changeDirectory cwk env state code directory).state =
      if state.account.isOk = true then (changeDirnameTo cwk state directory).1 else state := by
  unfold changeDirectory
  split_ifs with hok
  · split
    · rename_i h; rw [h]; rfl
    · rename_i h; rw [h]; rfl
    · rename_i h; rw [h]; rfl
    · rename_i h
      rw [h]
      split
      · rfl
      · rfl
  · rfl

theorem ftpProcessCommand_replies (h : transferArgument command = none) :
    ∀ a ∈ (ftpProcessCommand cwk env state command).actions, a.isReply = true := by
  cases command with
  | user arg =>
    unfold ftpProcessCommand processUser
    dsimp only
    split_ifs
    all_goals exact reply_only rfl
  | pass arg =>
    unfold ftpProcessCommand processPass verifyUser
    dsimp only
    split
    · split_ifs
      all_goals exact reply_only rfl
    · exact reply_only rfl
    · split
      all_goals exact reply_only rfl
  | pwd =>
    unfold ftpProcessCommand processPwd
    dsimp only
    split_ifs
    · split
      all_goals exact reply_only rfl
    · exact reply_only rfl
  | cwd arg => exact changeDirectory_actions _ _
  | cdup => exact changeDirectory_actions _ _
  | pasv =>
    unfold ftpProcessCommand processPasv
    dsimp only
    split_ifs
    · exact reply_only rfl
    · split
      · exact reply_only rfl
      · exact reply_only rfl
    · split
      · exact reply_only rfl
      · exact reply_only rfl
  | type info =>
    unfold ftpProcessCommand processType
    dsimp only
    split
    · exact reply_only rfl
    · split_ifs
      all_goals exact reply_only rfl
  | stor arg => cases h
  | retr arg => cases h
  | list arg => cases h
  | feat => exact reply_only rfl
  | port info => exact reply_only rfl
  | auth arg => exact reply_only rfl
  | syst => exact reply_only rfl
  | noop => exact reply_only rfl
  | other => exact reply_only rfl

/-- **What a command does to files**: if it names one and the session gets to resolve it, it
resolves it and has the effect that is its purpose; otherwise it only replies. -/
theorem ftpProcessCommand_none (env : CommandEnv)
    (h : commandTarget cwk state command = none) :
    ∀ a ∈ (ftpProcessCommand cwk env state command).actions, a.isReply = true := by
  cases command with
  | stor arg => exact (processStor_transfers cwk env state arg).none h
  | retr arg => exact (processRetr_transfers cwk env state arg).none h
  | list arg => exact (processList_transfers cwk env state arg).none h
  | _ => exact ftpProcessCommand_replies rfl

theorem ftpProcessCommand_some (env : CommandEnv)
    (h : commandTarget cwk state command = some path) :
    ∃ rest, (ftpProcessCommand cwk env state command).actions = .resolved path :: rest ∧
      ∀ a ∈ rest, a.isReply = true ∨ effectOf command path a := by
  cases command with
  | stor arg => exact (processStor_transfers cwk env state arg).some path h
  | retr arg => exact (processRetr_transfers cwk env state arg).some path h
  | list arg => exact (processList_transfers cwk env state arg).some path h
  | _ => cases h

/-- The purpose of a command is never just to resolve a path. -/
theorem effectOf_not_resolved (h : effectOf command path a) (p : Bytes) : a ≠ .resolved p := by
  cases command with
  | stor arg =>
    obtain ⟨data, rfl⟩ := h
    exact nofun
  | retr arg =>
    cases h
    exact nofun
  | list arg =>
    cases h
    exact nofun
  | _ => exact h.elim

theorem changeDirnameTo_frame (directory : Bytes) :
    (changeDirnameTo cwk state directory).1.globalFolder = state.globalFolder ∧
      (changeDirnameTo cwk state directory).1.account = state.account := by
  unfold changeDirnameTo
  split
  · exact ⟨rfl, rfl⟩
  · exact ⟨rfl, rfl⟩
  · split_ifs
    all_goals exact ⟨rfl, rfl⟩

/-- The folders are those of the state before. -/
structure SameFolders (state state' : FTPState) : Prop where
  global : state'.globalFolder = state.globalFolder
  cwd : state'.currentWorkingDirectory = state.currentWorkingDirectory

theorem processUser_same (env : CommandEnv) (state : FTPState) (arg : Bytes) :
    SameFolders state (processUser env state arg).state := by
  unfold processUser
  split_ifs
  · exact ⟨rfl, rfl⟩
  · exact ⟨rfl, rfl⟩

theorem processPass_same (env : CommandEnv) (state : FTPState) (arg : Bytes) :
    SameFolders state (processPass env state arg).state := by
  unfold processPass verifyUser
  split
  · split_ifs
    · exact ⟨rfl, rfl⟩
    · exact ⟨rfl, rfl⟩
  · exact ⟨rfl, rfl⟩
  · split
    all_goals exact ⟨rfl, rfl⟩

theorem processPwd_state (env : CommandEnv) (state : FTPState) :
    (processPwd env state).state = state := by
  unfold processPwd
  split_ifs
  · split
    · rfl
    · rfl
  · rfl

theorem processPasv_same (env : CommandEnv) (state : FTPState) :
    SameFolders state (processPasv env state).state ∧
      (processPasv env state).state.account = state.account := by
  unfold processPasv
  split
  · exact ⟨⟨rfl, rfl⟩, rfl⟩
  · split
    · exact ⟨⟨rfl, rfl⟩, rfl⟩
    · split
      · exact ⟨⟨rfl, rfl⟩, rfl⟩
      · exact ⟨⟨rfl, rfl⟩, rfl⟩

theorem processType_same (env : CommandEnv) (state : FTPState) (info : FtpCommandTypeInformation) :
    SameFolders state (processType env state info).state ∧
      (processType env state info).state.account = state.account := by
  unfold processType
  split
  · exact ⟨⟨rfl, rfl⟩, rfl⟩
  · dsimp only
    split_ifs
    all_goals exact ⟨⟨rfl, rfl⟩, rfl⟩

/-- **What a command does to the folders**: CWD and CDUP of a user who is logged in change the
directory, and nothing the served folder. -/
theorem ftpProcessCommand_same (env : CommandEnv)
    (h : directoryArgument command = none ∨ state.account.isOk = false) :
    SameFolders state (ftpProcessCommand cwk env state command).state := by
  -- CWD and CDUP are refused without a login
  have hdir : ∀ code directory, state.account.isOk = false →
      SameFolders state (changeDirectory cwk env state code directory).state := by
    intro code directory hok
    rw [changeDirectory_state, if_neg (by rw [hok]; exact Bool.false_ne_true)]
    exact ⟨rfl, rfl⟩
  cases command with
  | user arg => exact processUser_same env state arg
  | pass arg => exact processPass_same env state arg
  | pwd =>
    rw [ftpProcessCommand, processPwd_state]
    exact ⟨rfl, rfl⟩
  | cwd arg => exact hdir _ _ (h.resolve_left nofun)
  | cdup => exact hdir _ _ (h.resolve_left nofun)
  | pasv => exact (processPasv_same env state).1
  | type info => exact (processType_same env state info).1
  | stor arg =>
    rw [ftpProcessCommand, (processStor_transfers cwk env state arg).state]
    exact ⟨rfl, rfl⟩
  | retr arg =>
    rw [ftpProcessCommand, (processRetr_transfers cwk env state arg).state]
    exact ⟨rfl, rfl⟩
  | list arg =>
    rw [ftpProcessCommand, (processList_transfers cwk env state arg).state]
    exact ⟨rfl, rfl⟩
  | feat => exact ⟨rfl, rfl⟩
  | port info => exact ⟨rfl, rfl⟩
  | auth arg => exact ⟨rfl, rfl⟩
  | syst => exact ⟨rfl, rfl⟩
  | noop => exact ⟨rfl, rfl⟩
  | other => exact ⟨rfl, rfl⟩

theorem ftpProcessCommand_directory (env : CommandEnv) {directory : Bytes}
    (h : directoryArgument command = some directory) (hok : state.account.isOk = true) :
    (ftpProcessCommand cwk env state command).state = (changeDirnameTo cwk state directory).1 := by
  cases command with
  | cwd arg =>
    cases h
    rw [ftpProcessCommand, processCwd, changeDirectory_state, if_pos hok]
  | cdup =>
    cases h
    rw [ftpProcessCommand, processCdup, changeDirectory_state, if_pos hok]
  | _ => cases h

/-- **Only USER and PASS change the account.** -/
theorem ftpProcessCommand_account (env : CommandEnv) (huser : ∀ arg, command ≠ .user arg)
    (hpass : ∀ arg, command ≠ .pass arg) :
    (ftpProcessCommand cwk env state command).state.account = state.account := by
  have hdir : ∀ code directory,
      (changeDirectory cwk env state code directory).state.account = state.account := by
    intro code directory
    rw [changeDirectory_state]
    split_ifs
    · exact (changeDirnameTo_frame directory).2
    · rfl
  cases command with
  | user arg => exact absurd rfl (huser arg)
  | pass arg => exact absurd rfl (hpass arg)
  | pwd => rw [ftpProcessCommand, processPwd_state]
  | cwd arg => exact hdir _ _
  | cdup => exact hdir _ _
  | pasv => exact (processPasv_same env state).2
  | type info => exact (processType_same env state info).2
  | stor arg => rw [ftpProcessCommand, (processStor_transfers cwk env state arg).state]
  | retr arg => rw [ftpProcessCommand, (processRetr_transfers cwk env state arg).state]
  | list arg => rw [ftpProcessCommand, (processList_transfers cwk env state arg).state]
  | feat => rfl
  | port info => rfl
  | auth arg => rfl
  | syst => rfl
  | noop => rfl
  | other => rfl

end SimpleServer.Ftp
