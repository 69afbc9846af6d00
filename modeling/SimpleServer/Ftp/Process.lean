import SimpleServer.Ftp.Files
import SimpleServer.Ftp.Server

/-!
# Commands with their transfers (`ftp_process_command` in `ftp/server.c`)

The commands of `Server` take the outcome of a transfer as given. Here STOR, RETR and LIST do their
transfer: with the file system and with the descriptor of the data connection, which may be `NULL`.
A command that uses a `NULL` descriptor does not return.

* `processStor_eq`, `processRetr_eq`, `processList_eq`: a transfer command is what happens before
  the data connection is there, and then the transfer.
* `runCommand_refines`: a command that returns does what it does in `Server`.
-/

namespace SimpleServer.Ftp

open Lib Utils Generic

/-- What a transfer meets on its data connection and in the file system. -/
structure TransferEnv where
  /-- `data_connection_get_descriptor_to_send_to`; `none` is `NULL`. -/
  descriptor : Option Connection
  /-- What is read from the data connection. -/
  incoming : List Incoming
  files : FileSystem
  calls : FileCalls
  /-- `get_date_string` with `TimeFormatFTP`. -/
  dateString : ℕ → Option Bytes

/-- A processed command, with the data connection and the files afterwards. -/
structure Processed where
  actions : List FtpAction
  connection : Option Connection
  files : FileSystem
  /-- The state and what is returned; `none` if `ftp_process_command` does not return. -/
  returned : Option (FTPState × Bool)

/-- The command ends, and the transfer left this. -/
def ended (handled : Handled) (connection : Option Connection) (files : FileSystem) : Processed :=
  ⟨handled.actions, connection, files, some (handled.state, handled.alive)⟩

/-! ## Before the data connection is there -/

/-- The common start of STOR, RETR and LIST: `check` is the text with which a path is refused. -/
def transferReady (cwk : Cwalk) (env : CommandEnv) (state : FTPState) (arg : Bytes)
    (notLoggedIn : String) (errors : WaitErrors) (check : Bytes → Option String) :
    Except Handled (Bytes × List FtpAction) :=
  match resolveForTransfer cwk env state arg notLoggedIn with
  | .error handled => .error handled
  | .ok path =>
    match check path with
    | some text => .error (refuse env state path text)
    | none =>
      match awaitDataConnection env state [.resolved path] errors with
      | .error handled => .error handled
      | .ok done => .ok (path, done)

def storCheck (env : CommandEnv) (path : Bytes) : Option String :=
  match env.stat path with
  | .failed => some "Internal error 1"
  | .folder => some "Can't overwrite a folder"
  | .file => none
  | .noEntry => none

def retrCheck (env : CommandEnv) (path : Bytes) : Option String :=
  match env.stat path with
  | .noEntry => some "No such file / dir"
  | .failed => some "Internal error 7"
  | .folder => some "Can't RETR a folder"
  | .file => if ¬ env.access path then some "Access to file denied" else none

def listCheck (env : CommandEnv) (path : Bytes) : Option String :=
  match env.stat path with
  | .noEntry => some "No such file / dir"
  | .failed => some "Internal error 14"
  | .folder => if ¬ env.access path then some ("Access to " ++ "folder" ++ " denied") else none
  | .file => if ¬ env.access path then some ("Access to " ++ "file" ++ " denied") else none

def storReady (cwk : Cwalk) (env : CommandEnv) (state : FTPState) (arg : Bytes) :
    Except Handled (Bytes × List FtpAction) :=
  transferReady cwk env state arg "Not logged in: can't upload files!"
    ⟨"Internal error 2", "Internal error 3", "Internal error 4"⟩ (storCheck env)

def retrReady (cwk : Cwalk) (env : CommandEnv) (state : FTPState) (arg : Bytes) :
    Except Handled (Bytes × List FtpAction) :=
  transferReady cwk env state arg "Not logged in: can't access files!"
    ⟨"Internal error 8", "Internal error 9", "Internal error 10"⟩ (retrCheck env)

def listReady (cwk : Cwalk) (env : CommandEnv) (state : FTPState) (arg : Option Bytes) :
    Except Handled (Bytes × List FtpAction) :=
  transferReady cwk env state (arg.getD (ascii ".")) "Not logged in: can't access files!"
    ⟨"Internal error 15", "Internal error 16", "Internal  17"⟩ (listCheck env)

/-! ## The transfer -/

/-- The read from the data connection of STOR. Nothing checks the descriptor; the reader asks for
memory before it reads. -/
def receiveFrom (t : TransferEnv) : Option (Option Bytes) :=
  if t.descriptor = none ∧ t.incoming.head? ≠ some .noMemory then none
  else some (receiveData t.incoming)

/-- STOR once the data connection is there. -/
def runStor (env : CommandEnv) (t : TransferEnv) (state : FTPState) (path : Bytes)
    (done : List FtpAction) : Processed :=
  match receiveFrom t with
  | none => ⟨done, t.descriptor, t.files, none⟩
  | some none =>
    ended (respond env 1 state done .fileActionNotTaken (ascii "Internal error 5")) t.descriptor
      t.files
  | some (some data) =>
    match writeToFile t.calls t.files path data with
    | (files, false) =>
      ended (respond env 1 state (done ++ [.writeToFile path data]) .fileActionNotTaken
        (ascii "Internal error 6")) t.descriptor files
    | (files, true) =>
      ended (respond env 1 state (done ++ [.writeToFile path data]) .closingDataConnectionReqOk
        (ascii "Success. Closing Data Connection")) t.descriptor files

/-- The loop that sends, as long as it takes. -/
def sendAll (t : TransferEnv) (data : SendData) (sendMode : SendMode) (connection : Connection) :
    Option (Bool × Connection) :=
  sendLoop t.dateString data sendMode (setupSendProgress data sendMode).rounds
    (setupSendProgress data sendMode) connection

/-- The loop on the descriptor. With `NULL` it gets as far as its first write: a connection with
one write that fails shows whether it comes to that. -/
def sendOn (t : TransferEnv) (data : SendData) (sendMode : SendMode) :
    Option (Bool × Option Connection) :=
  match t.descriptor with
  | some connection =>
    (sendAll t data sendMode connection).map fun result => (result.1, some result.2)
  | none =>
    match sendAll t data sendMode ⟨[], [.failed]⟩ with
    | none => none
    | some (ok, connection) => if connection.results = [] then none else some (ok, none)

/-- RETR and LIST once the data connection is there. The descriptor that is compared with `NULL` is
the one of the control connection. -/
def runSend (env : CommandEnv) (t : TransferEnv) (state : FTPState) (done : List FtpAction)
    (collect : FtpAction) (data : Option SendData) (noData notClosed : String) : Processed :=
  if getCurrentSendMode state = .unsupported then
    ended (respond env 1 state done .fileActionAborted (ascii "Unsupported send mode"))
      t.descriptor t.files
  else
    let done := done ++ [collect]
    match data with
    | none =>
      ended (respond env 1 state done .fileActionAborted (ascii noData)) t.descriptor t.files
    | some data =>
      match sendOn t data (getCurrentSendMode state) with
      | none => ⟨done, none, t.files, none⟩
      | some (false, connection) =>
        ended (respond env 1 state done .fileActionAborted (ascii "Internal send error"))
          connection t.files
      | some (true, connection) =>
        if ¬ env.closeConnection then
          ended (respond env 1 state done .fileActionAborted (ascii notClosed)) connection t.files
        else
          ended (respond env 1 state done .closingDataConnectionReqOk
            (ascii "Success. Closing Data Connection")) connection t.files

/-- The data RETR sends. -/
def retrData (t : TransferEnv) (path : Bytes) : Option SendData :=
  getDataToSendForRetr t.calls t.files path

/-- The data LIST sends. -/
def listData (env : CommandEnv) (t : TransferEnv) (path : Bytes) : Option SendData :=
  getDataToSendForList t.calls t.files (env.stat path = .folder) path defaultSendFormat

/-- `ftp_process_command`, with `state->supported_features->size`. -/
def runCommand (cwk : Cwalk) (env : CommandEnv) (t : TransferEnv) (featureCount : ℕ)
    (state : FTPState) : FTPCommand → Processed
  | .stor arg =>
    match storReady cwk env state arg with
    | .error handled => ended handled t.descriptor t.files
    | .ok (path, done) => runStor env t state path done
  | .retr arg =>
    match retrReady cwk env state arg with
    | .error handled => ended handled t.descriptor t.files
    | .ok (path, done) =>
      runSend env t state done (.readFile path) (retrData t path) "Internal error 12"
        "Internal error 13"
  | .list arg =>
    match listReady cwk env state arg with
    | .error handled => ended handled t.descriptor t.files
    | .ok (path, done) =>
      runSend env t state done (.listPath path) (listData env t path) "Internal error 18"
        "Internal error 19"
  | .feat =>
    -- the loop over the features only ends if there are none
    if featureCount = 0 then
      ended (ftpProcessCommand cwk env state .feat) t.descriptor t.files
    else ⟨[], t.descriptor, t.files, none⟩
  | command => ended (ftpProcessCommand cwk env state command) t.descriptor t.files

/-! ## The same commands as in `Server` -/

variable {cwk : Cwalk} {env : CommandEnv} {t : TransferEnv} {state : FTPState} {arg path : Bytes}
  {done : List FtpAction} {featureCount : ℕ} {command : FTPCommand}

theorem processStor_eq (cwk : Cwalk) (env : CommandEnv) (state : FTPState) (arg : Bytes) :
    processStor cwk env state arg =
      match storReady cwk env state arg with
      | .error handled => handled
      | .ok (path, done) => storeData env state path done := by
  unfold processStor storReady transferReady storCheck
  cases resolveForTransfer cwk env state arg "Not logged in: can't upload files!" with
  | error handled => rfl
  | ok path =>
    dsimp only
    cases env.stat path with
    | failed => rfl
    | folder => rfl
    | file =>
      dsimp only
      cases awaitDataConnection env state [.resolved path]
        ⟨"Internal error 2", "Internal error 3", "Internal error 4"⟩ with
      | error handled => rfl
      | ok done => rfl
    | noEntry =>
      dsimp only
      cases awaitDataConnection env state [.resolved path]
        ⟨"Internal error 2", "Internal error 3", "Internal error 4"⟩ with
      | error handled => rfl
      | ok done => rfl

theorem processRetr_eq (cwk : Cwalk) (env : CommandEnv) (state : FTPState) (arg : Bytes) :
    processRetr cwk env state arg =
      match retrReady cwk env state arg with
      | .error handled => handled
      | .ok (path, done) =>
        sendCollected env state done (.readFile path) "Internal error 12" "Internal error 13" := by
  unfold processRetr retrReady transferReady retrCheck
  cases resolveForTransfer cwk env state arg "Not logged in: can't access files!" with
  | error handled => rfl
  | ok path =>
    dsimp only
    cases env.stat path with
    | noEntry => rfl
    | failed => rfl
    | folder => rfl
    | file =>
      dsimp only
      split_ifs
      · dsimp only
        cases awaitDataConnection env state [.resolved path]
          ⟨"Internal error 8", "Internal error 9", "Internal error 10"⟩ with
        | error handled => rfl
        | ok done => rfl
      · rfl

theorem processList_eq (cwk : Cwalk) (env : CommandEnv) (state : FTPState) (arg : Option Bytes) :
    processList cwk env state arg =
      match listReady cwk env state arg with
      | .error handled => handled
      | .ok (path, done) =>
        sendCollected env state done (.listPath path) "Internal error 18" "Internal error 19" := by
  have hfound : ∀ path fileType, listFound env state path fileType =
      if ¬ env.access path then refuse env state path ("Access to " ++ fileType ++ " denied")
      else
        match awaitDataConnection env state [.resolved path]
            ⟨"Internal error 15", "Internal error 16", "Internal  17"⟩ with
        | .error handled => handled
        | .ok done =>
          sendCollected env state done (.listPath path) "Internal error 18" "Internal error 19" :=
    fun _ _ => rfl
  unfold processList listReady transferReady listCheck
  cases resolveForTransfer cwk env state (arg.getD (ascii "."))
      "Not logged in: can't access files!" with
  | error handled => rfl
  | ok path =>
    dsimp only
    cases env.stat path with
    | noEntry => rfl
    | failed => rfl
    | folder =>
      dsimp only
      rw [hfound]
      split_ifs
      · dsimp only
        cases awaitDataConnection env state [.resolved path]
          ⟨"Internal error 15", "Internal error 16", "Internal  17"⟩ with
        | error handled => rfl
        | ok done => rfl
      · rfl
    | file =>
      dsimp only
      rw [hfound]
      split_ifs
      · dsimp only
        cases awaitDataConnection env state [.resolved path]
          ⟨"Internal error 15", "Internal error 16", "Internal  17"⟩ with
        | error handled => rfl
        | ok done => rfl
      · rfl

/-- What is known of the transfer, as `Server` takes it. -/
def CommandEnv.after (env : CommandEnv) (received : Option Bytes) (written collected sent : Bool) :
    CommandEnv :=
  { env with
    received := received
    writeToFile := written
    dataToSend := collected
    sendData := sent }

/-- A transfer that returned did what this command does. -/
def Refines (processed : Processed) (handled : Handled) : Prop :=
  processed.returned = some (handled.state, handled.alive) ∧ processed.actions = handled.actions

theorem refines_ended (handled : Handled) (connection : Option Connection) (files : FileSystem) :
    Refines (ended handled connection files) handled := ⟨rfl, rfl⟩

theorem runStor_refines (h : (runStor env t state path done).returned.isSome = true) :
    ∃ received written, ∀ collected sent, Refines (runStor env t state path done)
      (storeData (env.after received written collected sent) state path done) := by
  unfold runStor at h ⊢
  cases hreceive : receiveFrom t with
  | none =>
    rw [hreceive] at h
    cases h
  | some received =>
    refine ⟨received, ?_⟩
    cases received with
    | none => exact ⟨true, fun _ _ => refines_ended _ _ _⟩
    | some data =>
      dsimp only
      cases writeToFile t.calls t.files path data with
      | mk files written =>
        refine ⟨written, fun collected sent => ?_⟩
        cases written with
        | false => exact refines_ended _ _ _
        | true => exact refines_ended _ _ _

theorem runSend_refines {collect : FtpAction} {data : Option SendData} {noData notClosed : String}
    (h : (runSend env t state done collect data noData notClosed).returned.isSome = true) :
    ∃ collected sent, ∀ received written,
      Refines (runSend env t state done collect data noData notClosed)
        (sendCollected (env.after received written collected sent) state done collect noData
          notClosed) := by
  unfold runSend sendCollected at *
  by_cases hmode : getCurrentSendMode state = .unsupported
  · simp only [if_pos hmode]
    exact ⟨true, true, fun _ _ => refines_ended _ _ _⟩
  · simp only [if_neg hmode] at h ⊢
    cases data with
    | none => exact ⟨false, true, fun _ _ => refines_ended _ _ _⟩
    | some data =>
      refine ⟨true, ?_⟩
      dsimp only at h ⊢
      cases hsend : sendOn t data (getCurrentSendMode state) with
      | none =>
        rw [hsend] at h
        cases h
      | some result =>
        obtain ⟨ok, connection⟩ := result
        refine ⟨ok, fun received written => ?_⟩
        cases ok with
        | false => exact refines_ended _ _ _
        | true =>
          by_cases hclose : env.closeConnection = true
          · simp only [CommandEnv.after, hclose, not_true_eq_false, if_false]
            exact refines_ended _ _ _
          · simp only [CommandEnv.after, hclose, not_true_eq_false, if_false]
            exact refines_ended _ _ _

/-- **A command that returns** does what it does in `Server`, for some outcome of its transfer. -/
theorem runCommand_refines
    (h : (runCommand cwk env t featureCount state command).returned.isSome = true) :
    ∃ received written collected sent, Refines (runCommand cwk env t featureCount state command)
      (ftpProcessCommand cwk (env.after received written collected sent) state command) := by
  cases command with
  | stor arg =>
    have hstart : ∀ received written collected sent,
        storReady cwk (env.after received written collected sent) state arg =
          storReady cwk env state arg := fun _ _ _ _ => rfl
    simp only [ftpProcessCommand, processStor_eq, hstart, runCommand] at h ⊢
    cases hready : storReady cwk env state arg with
    | error handled => exact ⟨none, true, true, true, refines_ended _ _ _⟩
    | ok ready =>
      obtain ⟨path, done⟩ := ready
      rw [hready] at h
      obtain ⟨received, written, hrefines⟩ := runStor_refines h
      exact ⟨received, written, true, true, hrefines true true⟩
  | retr arg =>
    have hstart : ∀ received written collected sent,
        retrReady cwk (env.after received written collected sent) state arg =
          retrReady cwk env state arg := fun _ _ _ _ => rfl
    simp only [ftpProcessCommand, processRetr_eq, hstart, runCommand] at h ⊢
    cases hready : retrReady cwk env state arg with
    | error handled => exact ⟨none, true, true, true, refines_ended _ _ _⟩
    | ok ready =>
      obtain ⟨path, done⟩ := ready
      rw [hready] at h
      obtain ⟨collected, sent, hrefines⟩ := runSend_refines h
      exact ⟨none, true, collected, sent, hrefines none true⟩
  | list arg =>
    have hstart : ∀ received written collected sent,
        listReady cwk (env.after received written collected sent) state arg =
          listReady cwk env state arg := fun _ _ _ _ => rfl
    simp only [ftpProcessCommand, processList_eq, hstart, runCommand] at h ⊢
    cases hready : listReady cwk env state arg with
    | error handled => exact ⟨none, true, true, true, refines_ended _ _ _⟩
    | ok ready =>
      obtain ⟨path, done⟩ := ready
      rw [hready] at h
      obtain ⟨collected, sent, hrefines⟩ := runSend_refines h
      exact ⟨none, true, collected, sent, hrefines none true⟩
  | feat =>
    unfold runCommand at h ⊢
    split_ifs at h ⊢ with hcount
    · exact ⟨none, true, true, true, refines_ended _ _ _⟩
    · cases h
  | _ => exact ⟨none, true, true, true, refines_ended _ _ _⟩

end SimpleServer.Ftp
