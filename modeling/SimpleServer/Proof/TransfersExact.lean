import SimpleServer.Lib.Run
import SimpleServer.Ftp.Files
import SimpleServer.Ftp.Server

/-!
# Transfers send what they should

In image type and stream mode RETR sends the bytes of its file and LIST a line for each entry of
its folder; and what STOR has stored is what RETR sends.

* `session_modes`: a session never leaves stream mode and file structure.
* `transfersExact`: the three facts for any session in image type.
-/

namespace SimpleServer.Ftp

open Lib Utils Generic

/-- The loop of a transfer ends on any connection. It has sent a part of these bytes, and all of
them unless a write fails. -/
def LoopSends (dateString : ℕ → Option Bytes) (data : SendData) (sendMode : SendMode)
    (bytes : Bytes) : Prop :=
  ∀ connection, ∃ ok connection', Sent connection bytes ok connection' ∧
    ∃ enough, ∀ fuel ≥ enough,
      sendLoop dateString data sendMode fuel (setupSendProgress data sendMode) connection =
        some (ok, connection')

/-- RETR sends what is in its file. -/
structure RetrExact (dateString : ℕ → Option Bytes) (state : FTPState) : Prop where
  sends : ∀ calls files path data, getDataToSendForRetr calls files path = some data →
    ∃ content, files.content path = some content ∧
      LoopSends dateString data (getCurrentSendMode state) content
  reads : ∀ calls files path content, calls.Succeed → files.content path = some content →
    (getDataToSendForRetr calls files path).isSome = true

/-- LIST of a folder sends one line for each entry, with its name. -/
structure ListExact (dateString : ℕ → Option Bytes) (state : FTPState) : Prop where
  sends : ∀ calls files folder data,
    getDataToSendForList calls files true folder defaultSendFormat = some data →
    ∃ delivered found, files.opendir folder = some delivered ∧
      Entries files folder (entryNames delivered) found ∧
      LoopSends dateString data (getCurrentSendMode state) (found.map eplfLine).flatten
  line : ∀ file : FileWithMetadata, 0x0A ∉ file.fileName → IsLine (eplfLine file)
  names : ∀ file : FileWithMetadata, NamesFile (eplfLine file) file
  reads : ∀ calls files folder delivered, calls.Succeed → files.opendir folder = some delivered →
    (∀ event ∈ delivered, Listable files folder event) →
    (getDataToSendForList calls files true folder defaultSendFormat).isSome = true

/-- What STOR has stored is what RETR sends. -/
structure StoredExact (dateString : ℕ → Option Bytes) (state : FTPState) : Prop where
  receives : ∀ incoming, OnlyBytes incoming → receiveData incoming = some (arriving incoming)
  sends : ∀ incoming stored calls calls' files files' path data, OnlyBytes incoming →
    receiveData incoming = some stored →
    writeToFile calls files path stored = (files', true) →
    getDataToSendForRetr calls' files' path = some data →
    LoopSends dateString data (getCurrentSendMode state) (arriving incoming)
  writes : ∀ calls files path stored, calls.Succeed →
    (writeToFile calls files path stored).2 = true

/-- The transfers of a session are exact. -/
structure TransfersExact (dateString : ℕ → Option Bytes) (state : FTPState) : Prop where
  retr : RetrExact dateString state
  list : ListExact dateString state
  stored : StoredExact dateString state

variable {cwk : Cwalk} {state : FTPState} {command : FTPCommand} {session : Session} {c : Issued}
  {dateString : ℕ → Option Bytes} {data : SendData} {sendMode : SendMode} {content : Bytes}

/-! ## Stream mode -/

/-- The transfer parameters that no command sets. -/
structure SameModes (state state' : FTPState) : Prop where
  mode : state'.mode = state.mode
  structure' : state'.structure' = state.structure'

theorem SameModes.refl (state : FTPState) : SameModes state state := ⟨rfl, rfl⟩

theorem changeDirnameTo_modes (cwk : Cwalk) (state : FTPState) (directory : Bytes) :
    SameModes state (changeDirnameTo cwk state directory).1 := by
  unfold changeDirnameTo
  split
  · exact .refl state
  · exact .refl state
  · split_ifs
    all_goals exact ⟨rfl, rfl⟩

theorem changeDirectory_modes (cwk : Cwalk) (env : CommandEnv) (state : FTPState)
    (code : FtpReturnCode) (directory : Bytes) :
    SameModes state (changeDirectory cwk env state code directory).state := by
  rw [changeDirectory_state]
  split_ifs
  · exact changeDirnameTo_modes cwk state directory
  · exact .refl state

theorem processPass_modes (env : CommandEnv) (state : FTPState) (arg : Bytes) :
    SameModes state (processPass env state arg).state := by
  unfold processPass verifyUser
  split
  · split_ifs
    · exact ⟨rfl, rfl⟩
    · exact ⟨rfl, rfl⟩
  · exact ⟨rfl, rfl⟩
  · split
    all_goals exact ⟨rfl, rfl⟩

theorem processPasv_modes (env : CommandEnv) (state : FTPState) :
    SameModes state (processPasv env state).state := by
  unfold processPasv
  split_ifs
  · exact ⟨rfl, rfl⟩
  all_goals
    split
    · exact ⟨rfl, rfl⟩
    · exact ⟨rfl, rfl⟩

theorem processType_modes (env : CommandEnv) (state : FTPState)
    (info : FtpCommandTypeInformation) : SameModes state (processType env state info).state := by
  unfold processType
  split
  · exact ⟨rfl, rfl⟩
  · dsimp only
    split_ifs
    all_goals exact ⟨rfl, rfl⟩

/-- **No command** leaves stream mode or file structure. -/
theorem ftpProcessCommand_modes (cwk : Cwalk) (env : CommandEnv) (state : FTPState)
    (command : FTPCommand) : SameModes state (ftpProcessCommand cwk env state command).state := by
  cases command with
  | user arg =>
    unfold ftpProcessCommand processUser
    dsimp only
    split_ifs
    · exact ⟨rfl, rfl⟩
    · exact ⟨rfl, rfl⟩
  | pass arg => exact processPass_modes env state arg
  | pwd =>
    rw [ftpProcessCommand, processPwd_state]
    exact .refl state
  | cwd arg => exact changeDirectory_modes cwk env state _ _
  | cdup => exact changeDirectory_modes cwk env state _ _
  | pasv => exact processPasv_modes env state
  | type info => exact processType_modes env state info
  | stor arg =>
    rw [ftpProcessCommand, (processStor_transfers cwk env state arg).state]
    exact .refl state
  | retr arg =>
    rw [ftpProcessCommand, (processRetr_transfers cwk env state arg).state]
    exact .refl state
  | list arg =>
    rw [ftpProcessCommand, (processList_transfers cwk env state arg).state]
    exact .refl state
  | _ => exact ⟨rfl, rfl⟩

theorem sessionStep_modes (cwk : Cwalk) (session : Session) (c : Issued) :
    SameModes session.state (sessionStep cwk session c).state := by
  unfold sessionStep
  split_ifs
  · exact ftpProcessCommand_modes cwk c.env session.state c.command
  · exact .refl session.state

/-- **A session** stays in stream mode and file structure. -/
theorem session_modes (cwk : Cwalk) (folder : Bytes) (commands : List Issued) :
    SameModes (defaultState folder)
      (runFrom (sessionStep cwk) (startSession folder) commands).state := by
  induction commands using List.reverseRecOn with
  | nil => exact .refl _
  | append_singleton commands c ih =>
    rw [runFrom_append, runFrom_cons, runFrom_nil]
    have hstep := sessionStep_modes cwk
      (runFrom (sessionStep cwk) (startSession folder) commands) c
    exact ⟨hstep.mode.trans ih.mode, hstep.structure'.trans ih.structure'⟩

/-! ## What the loop sends -/

theorem SendsPieces.loopSends {pieces : List Bytes}
    (h : SendsPieces dateString data sendMode (setupSendProgress data sendMode) pieces) :
    LoopSends dateString data sendMode pieces.flatten := by
  intro connection
  exact ⟨_, _, sendPieces_sent connection pieces, _, fun fuel hfuel => h fuel hfuel connection⟩

theorem rawData_loopSends (dateString : ℕ → Option Bytes) (content : Bytes) :
    LoopSends dateString (.rawData content) .streamBinaryFile content := by
  obtain ⟨pieces, hflatten, -, hpieces⟩ := sendLoop_rawData dateString content
  have hsends := hpieces.loopSends
  rwa [hflatten] at hsends

theorem multipleFiles_loopSends (dateString : ℕ → Option Bytes) (found : List FileWithMetadata)
    (sizes : MaxSize) :
    LoopSends dateString (.multipleFiles found sizes .eplf) .streamBinaryFile
      (found.map eplfLine).flatten :=
  (sendLoop_multipleFiles fun _ _ => rfl).loopSends

/-! ## Sessions -/

theorem retrExact (hmode : getCurrentSendMode state = .streamBinaryFile) :
    RetrExact dateString state := by
  constructor
  · intro calls files path data h
    obtain ⟨content, hcontent, rfl⟩ := getDataToSendForRetr_eq h
    rw [hmode]
    exact ⟨content, hcontent, rawData_loopSends dateString content⟩
  · intro calls files path content hcalls hcontent
    rw [getDataToSendForRetr, readEntireFile_succeeds hcalls hcontent]
    rfl

theorem listExact (hmode : getCurrentSendMode state = .streamBinaryFile) :
    ListExact dateString state := by
  constructor
  · intro calls files folder data h
    obtain ⟨delivered, found, sizes, hopen, rfl, hentries⟩ := getFilesInFolder_eq h
    rw [hmode]
    exact ⟨delivered, found, hopen, hentries, multipleFiles_loopSends dateString found sizes⟩
  · intro file hname
    exact eplfLine_isLine hname
  · intro file
    exact eplfLine_namesFile file
  · intro calls files folder delivered hcalls hopen hlistable
    exact getFilesInFolder_succeeds hcalls hopen hlistable defaultSendFormat

theorem storedExact (hmode : getCurrentSendMode state = .streamBinaryFile) :
    StoredExact dateString state := by
  constructor
  · intro incoming hbytes
    exact receiveData_eq hbytes
  · intro incoming stored calls calls' files files' path data hbytes hreceive hwrite hdata
    have hstored : stored = arriving incoming := by
      rw [receiveData_eq hbytes] at hreceive
      exact (Option.some.inj hreceive).symm
    obtain ⟨content, hcontent, rfl⟩ := getDataToSendForRetr_eq hdata
    have hsame : content = stored := by
      rw [writeToFile_eq hwrite] at hcontent
      exact (Option.some.inj hcontent).symm
    rw [hmode, hsame, hstored]
    exact rawData_loopSends dateString _
  · intro calls files path stored hcalls
    rw [writeToFile_succeeds hcalls]

/-- **The transfers of a session in image type are exact.** -/
theorem transfersExact (cwk : Cwalk) (dateString : ℕ → Option Bytes) (folder : Bytes)
    (commands : List Issued)
    (himage : (runFrom (sessionStep cwk) (startSession folder) commands).state.currentType =
      transmissionTypeImage) :
    TransfersExact dateString
      (runFrom (sessionStep cwk) (startSession folder) commands).state := by
  have hmodes := session_modes cwk folder commands
  have hmode : getCurrentSendMode
      (runFrom (sessionStep cwk) (startSession folder) commands).state = .streamBinaryFile := by
    have hstream : (runFrom (sessionStep cwk) (startSession folder) commands).state.mode =
        .stream := hmodes.mode
    rw [getCurrentSendMode, if_neg (not_not.2 himage), if_neg (not_not.2 hstream),
      hmodes.structure']
    rfl
  exact ⟨retrExact hmode, listExact hmode, storedExact hmode⟩

/-- An anonymous user sets the image type. -/
def intoImageType : List Issued :=
  [⟨.user (ascii "anonymous"), quietEnv⟩, ⟨.type (.normal 4), quietEnv⟩]

theorem intoImageType_exact : TransfersExact (fun _ => none)
    (runFrom (sessionStep Cwalk.plain) (startSession (ascii "/srv/ftp")) intoImageType).state :=
  transfersExact Cwalk.plain _ _ _ (by decide +kernel)

end SimpleServer.Ftp
