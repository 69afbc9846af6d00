import SimpleServer.Ftp.Process

/-!
# One final reply for each command

A client waits for one reply that is not preliminary before it sends the next command. A transfer
may announce the data connection before that.

* `Answered`: the replies of a command.
* `runStor_spec`, `runSend_spec`: when a transfer with its data connection is answered.
* `oneFinalReply_iff`: when a command is.
-/

namespace SimpleServer.Ftp

open Lib Utils Generic

/-! ## Replies -/

/-- The number of a code. -/
def FtpReturnCode.value : FtpReturnCode → ℕ
  | .dataConnectionAlreadyOpen => 125
  | .dataConnectionWaitingForOpen => 150
  | .cmdOk => 200
  | .featureList => 211
  | .systemName => 215
  | .closingDataConnectionReqOk => 226
  | .enteringPassiveMode => 227
  | .userLoggedIn => 230
  | .fileActionOk => 250
  | .dirOpSucc => 257
  | .needPswd => 331
  | .dataConnectionOpenError => 425
  | .fileActionNotTaken => 450
  | .fileActionAborted => 451
  | .syntaxError => 500
  | .commandNotImplemented => 502
  | .badSequence => 503
  | .commandNotImplementedForParam => 504
  | .notLoggedIn => 530
  | .fileActionNotTakenFatal => 550

/-- A code 1xx. -/
def FtpReturnCode.isPreliminary (code : FtpReturnCode) : Bool := code.value / 100 = 1

/-- A code 2xx. -/
def FtpReturnCode.isPositive (code : FtpReturnCode) : Bool := code.value / 100 = 2

def replyCodes (actions : List FtpAction) : List FtpReturnCode :=
  actions.filterMap fun a =>
    match a with
    | .reply code _ => some code
    | _ => none

/-- An access to a file, which is a part of the transfer. -/
def FtpAction.isTransfer : FtpAction → Bool
  | .reply _ _ => false
  | .resolved _ => false
  | _ => true

/-- Exactly one final reply, which comes last; at most one preliminary one before it, and before
anything of the transfer. -/
structure Answered (actions : List FtpAction) (code : FtpReturnCode) : Prop where
  replies : ∃ pre, replyCodes actions = pre ++ [code] ∧ pre.length ≤ 1 ∧
    ∀ c ∈ pre, c.isPreliminary = true
  final : code.isPreliminary = false
  before : ∃ start rest, actions = start ++ rest ∧ (∀ a ∈ start, a.isTransfer = false) ∧
    ∀ c ∈ replyCodes rest, c.isPreliminary = false

/-! ## Whole transfers -/

/-- What there is to send of some data, in the format of a session. -/
def SendData.bytes : SendData → Bytes
  | .file entry _ => eplfLine entry
  | .multipleFiles files _ _ => (files.map eplfLine).flatten
  | .rawData data => data

/-- These bytes were sent on the data connection. -/
def OnConnection (t : TransferEnv) (after : Option Connection) (bytes : Bytes) : Prop :=
  match t.descriptor, after with
  | some connection, some connection' => connection'.written = connection.written ++ bytes
  | none, none => bytes = []
  | _, _ => False

/-- The whole transfer of a command succeeded. -/
def WholeTransfer (cwk : Cwalk) (env : CommandEnv) (t : TransferEnv) (state : FTPState)
    (command : FTPCommand) (processed : Processed) : Prop :=
  ∃ path, commandTarget cwk state command = some path ∧
    match command with
    -- the data connection was read to its end, and everything is in the file
    | .stor _ => OnlyBytes t.incoming ∧ processed.files.content path = some (arriving t.incoming)
    | .retr _ => ∃ content, t.files.content path = some content ∧
        retrData t path = some (.rawData content) ∧
        OnConnection t processed.connection content ∧ env.closeConnection = true
    | .list _ => ∃ data, listData env t path = some data ∧
        OnConnection t processed.connection data.bytes ∧ env.closeConnection = true
    | _ => False

/-- A command is answered as its client expects it. -/
structure OneFinalReply (cwk : Cwalk) (env : CommandEnv) (t : TransferEnv) (state : FTPState)
    (command : FTPCommand) (processed : Processed) : Prop where
  returns : processed.returned.isSome = true
  answered : ∃ code, Answered processed.actions code ∧
    (transferArgument command ≠ none → code.isPositive = true →
      WholeTransfer cwk env t state command processed)
  preliminary : transferArgument command = none →
    ∀ c ∈ replyCodes processed.actions, c.isPreliminary = false

/-! ## When commands are answered -/

/-- The data connection is there at once or after a while. -/
def ConnectionComes (env : CommandEnv) : Prop :=
  env.connectionAtOnce = true ∨ env.startClock = true ∧ waitLoop env.rounds = .established

instance (env : CommandEnv) : Decidable (ConnectionComes env) :=
  inferInstanceAs (Decidable (_ ∨ _))

/-- With which text a path is refused. -/
def pathCheck (env : CommandEnv) : FTPCommand → Bytes → Option String
  | .stor _ => storCheck env
  | .retr _ => retrCheck env
  | .list _ => listCheck env
  | _ => fun _ => none

/-- The path of a command that gets to its data connection. -/
def transferPath (cwk : Cwalk) (env : CommandEnv) (state : FTPState) (command : FTPCommand) :
    Option Bytes :=
  (commandTarget cwk state command).filter fun path =>
    pathCheck env command path = none ∧ ConnectionComes env

/-- The data is sent completely: there is a descriptor, or it is never used; and with records there
is nothing to send. -/
def SendWorks (env : CommandEnv) (t : TransferEnv) (state : FTPState) (data : SendData) : Prop :=
  match getCurrentSendMode state with
  | .unsupported => True
  | .streamBinaryFile =>
    t.descriptor ≠ none ∨ data.bytes = [] ∨ ∃ file format, data = .file file format
  | .streamBinaryRecord => data.bytes = [] ∨ env.closeConnection = false

/-- The transfer of a command has what it uses. -/
def TransferWorks (cwk : Cwalk) (env : CommandEnv) (t : TransferEnv) (featureCount : ℕ)
    (state : FTPState) (command : FTPCommand) : Prop :=
  match command with
  | .feat => featureCount = 0
  | .stor _ => ∀ path, transferPath cwk env state command = some path →
      t.descriptor ≠ none ∨ t.incoming.head? = some .noMemory
  | .retr _ => ∀ path, transferPath cwk env state command = some path →
      ∀ data, retrData t path = some data → SendWorks env t state data
  | .list _ => ∀ path, transferPath cwk env state command = some path →
      ∀ data, listData env t path = some data → SendWorks env t state data
  | _ => True

variable {cwk : Cwalk} {env : CommandEnv} {t : TransferEnv} {state : FTPState} {arg path : Bytes}
  {done : List FtpAction} {featureCount : ℕ} {command : FTPCommand} {code : FtpReturnCode}
  {text : Bytes}

/-! ## Answers -/

theorem replyCodes_append (actions actions' : List FtpAction) :
    replyCodes (actions ++ actions') = replyCodes actions ++ replyCodes actions' :=
  List.filterMap_append

/-- The final reply behind preliminary ones and the transfer. -/
theorem answered_of {start : List FtpAction} (effects : List FtpAction) (text : Bytes)
    (hstart : ∀ a ∈ start, a.isTransfer = false) (hlength : (replyCodes start).length ≤ 1)
    (hpre : ∀ c ∈ replyCodes start, c.isPreliminary = true) (heffects : replyCodes effects = [])
    (hfinal : code.isPreliminary = false) :
    Answered (start ++ effects ++ [.reply code text]) code := by
  have hreply : replyCodes [.reply code text] = [code] := rfl
  refine ⟨⟨replyCodes start, ?_, hlength, hpre⟩, hfinal, start, effects ++ [.reply code text],
    List.append_assoc _ _ _, hstart, ?_⟩
  · rw [replyCodes_append, replyCodes_append, heffects, List.append_nil, hreply]
  · intro c hc
    rw [replyCodes_append, heffects, List.nil_append, hreply] at hc
    rw [List.mem_singleton.1 hc]
    exact hfinal

/-- A reply alone, or behind the path. -/
theorem answered_quiet {start : List FtpAction} (text : Bytes) (hstart : replyCodes start = [])
    (hquiet : ∀ a ∈ start, a.isTransfer = false) (hfinal : code.isPreliminary = false) :
    Answered (start ++ [.reply code text]) code := by
  have h := answered_of [] text hquiet (by rw [hstart]; exact Nat.zero_le 1)
    (by rw [hstart]; nofun) rfl hfinal
  rwa [List.append_nil] at h

/-- The actions when the data connection is there. -/
def Announced (path : Bytes) (done : List FtpAction) : Prop :=
  ∃ code text, done = [.resolved path, .reply code text] ∧ code.isPreliminary = true

theorem Announced.answered (h : Announced path done) (effects : List FtpAction) (text : Bytes)
    (heffects : replyCodes effects = []) (hfinal : code.isPreliminary = false) :
    Answered (done ++ effects ++ [.reply code text]) code := by
  obtain ⟨pre, announcement, rfl, hpre⟩ := h
  refine answered_of effects text ?_ (le_refl 1) ?_ heffects hfinal
  · intro a ha
    rcases List.mem_cons.1 ha with rfl | ha
    · rfl
    · rw [List.mem_singleton.1 ha]
      rfl
  · intro c hc
    rw [List.mem_singleton.1 hc]
    exact hpre

/-! ## Before the data connection is there -/

/-- A transfer that ended early: it is answered, and not positively. -/
def EndedEarly (handled : Handled) : Prop :=
  ∃ code, Answered handled.actions code ∧ code.isPositive = false

theorem endedEarly_quiet {start : List FtpAction} (n : ℕ) (text : Bytes)
    (hstart : replyCodes start = []) (hquiet : ∀ a ∈ start, a.isTransfer = false)
    (hfinal : code.isPreliminary = false) (hpositive : code.isPositive = false) :
    EndedEarly (respond env n state start code text) :=
  ⟨code, answered_quiet text hstart hquiet hfinal, hpositive⟩

theorem endedEarly_announced (h : Announced path done) (n : ℕ) (text : Bytes)
    (hfinal : code.isPreliminary = false) (hpositive : code.isPositive = false) :
    EndedEarly (respond env n state done code text) := by
  have hanswered := h.answered [] text rfl hfinal
  rw [List.append_nil] at hanswered
  exact ⟨code, hanswered, hpositive⟩

theorem refuse_early (text : String) : EndedEarly (refuse env state path text) := by
  refine endedEarly_quiet 0 (ascii text) rfl (fun a ha => ?_) (by decide) (by decide)
  rw [List.mem_singleton.1 ha]
  rfl

theorem resolveForTransfer_early {notLoggedIn : String} {handled : Handled}
    (h : resolveForTransfer cwk env state arg notLoggedIn = .error handled) :
    EndedEarly handled := by
  unfold resolveForTransfer at h
  split_ifs at h
  · cases h
    exact endedEarly_quiet 0 _ rfl nofun (by decide) (by decide)
  · split at h
    · cases h
      exact endedEarly_quiet 0 _ rfl nofun (by decide) (by decide)
    · cases h
  · cases h
    exact endedEarly_quiet 0 _ rfl nofun (by decide) (by decide)

/-- Waiting ends with the announced connection, if it comes, and early otherwise. -/
theorem awaitDataConnection_cases (hsend : ∀ n, env.sendResponse n = true) (state : FTPState)
    (path : Bytes) (errors : WaitErrors) :
    (ConnectionComes env ∧ ∃ done, Announced path done ∧
        awaitDataConnection env state [.resolved path] errors = .ok done) ∨
      (¬ ConnectionComes env ∧ ∃ handled, EndedEarly handled ∧
        awaitDataConnection env state [.resolved path] errors = .error handled) := by
  have hopen : Announced path
      [.resolved path, .reply .dataConnectionAlreadyOpen (ascii "Ok. Sending data")] :=
    ⟨_, _, rfl, by decide⟩
  have hwaiting : Announced path [.resolved path,
      .reply .dataConnectionWaitingForOpen (ascii "Ok. Waiting for data connection")] :=
    ⟨_, _, rfl, by decide⟩
  unfold awaitDataConnection ConnectionComes
  by_cases honce : env.connectionAtOnce = true
  · left
    rw [if_pos honce, if_pos (hsend 0)]
    exact ⟨.inl honce, _, hopen, rfl⟩
  · rw [if_neg honce, if_neg (not_not.2 (hsend 0))]
    by_cases hclock : env.startClock = true
    · rw [if_neg (not_not.2 hclock)]
      cases hloop : waitLoop env.rounds with
      | established => exact .inl ⟨.inr ⟨hclock, rfl⟩, _, hwaiting, rfl⟩
      | sleepFailed =>
        exact .inr
          ⟨by simp [honce], _, endedEarly_announced hwaiting 1 _ (by decide) (by decide), rfl⟩
      | clockFailed =>
        exact .inr
          ⟨by simp [honce], _, endedEarly_announced hwaiting 1 _ (by decide) (by decide), rfl⟩
      | timedOut =>
        exact .inr
          ⟨by simp [honce], _, endedEarly_announced hwaiting 1 _ (by decide) (by decide), rfl⟩
      | notYet =>
        exact .inr
          ⟨by simp [honce], _, endedEarly_announced hwaiting 1 _ (by decide) (by decide), rfl⟩
    · rw [if_pos hclock]
      exact .inr ⟨by simp [honce, hclock], _,
        endedEarly_announced hwaiting 1 _ (by decide) (by decide), rfl⟩

/-- **The start of a transfer** ends early, or gets to its data connection. -/
theorem transferReady_cases (hsend : ∀ n, env.sendResponse n = true) (notLoggedIn : String)
    (errors : WaitErrors) (check : Bytes → Option String) :
    (∃ path done, (transferTarget cwk state arg).filter
          (fun path => check path = none ∧ ConnectionComes env) = some path ∧
        Announced path done ∧
        transferReady cwk env state arg notLoggedIn errors check = .ok (path, done)) ∨
      ((transferTarget cwk state arg).filter
          (fun path => check path = none ∧ ConnectionComes env) = none ∧
        ∃ handled, EndedEarly handled ∧
          transferReady cwk env state arg notLoggedIn errors check = .error handled) := by
  unfold transferReady
  cases hresolve : resolveForTransfer cwk env state arg notLoggedIn with
  | error handled =>
    right
    obtain ⟨htarget, -⟩ := resolveForTransfer_error Writes hresolve
    rw [htarget]
    exact ⟨rfl, handled, resolveForTransfer_early hresolve, rfl⟩
  | ok path =>
    rw [resolveForTransfer_ok hresolve]
    dsimp only
    cases hcheck : check path with
    | some text =>
      right
      refine ⟨?_, _, refuse_early text, rfl⟩
      rw [Option.filter_some, if_neg]
      simp [hcheck]
    | none =>
      rcases awaitDataConnection_cases hsend state path errors with
        ⟨hcomes, done, hdone, hawait⟩ | ⟨hcomes, handled, hearly, hawait⟩
      · left
        refine ⟨path, done, ?_, hdone, by rw [hawait]⟩
        rw [Option.filter_some, if_pos]
        simp [hcheck, hcomes]
      · right
        refine ⟨?_, handled, hearly, by rw [hawait]⟩
        rw [Option.filter_some, if_neg]
        simp [hcomes]

/-! ## With the data connection -/

/-- A transfer that is answered and, if positively, whole. -/
def EndedWell (whole : Processed → Prop) (processed : Processed) : Prop :=
  processed.returned.isSome = true ∧
    ∃ code, Answered processed.actions code ∧ (code.isPositive = true → whole processed)

theorem endedWell_refused {whole : Processed → Prop} (h : Announced path done)
    (effects : List FtpAction) (text : Bytes) (connection : Option Connection)
    (files : FileSystem) (heffects : replyCodes effects = []) (hfinal : code.isPreliminary = false)
    (hpositive : code.isPositive = false) :
    EndedWell whole (ended (respond env 1 state (done ++ effects) code text) connection files) := by
  refine ⟨rfl, code, h.answered effects text heffects hfinal, fun hcode => ?_⟩
  rw [hpositive] at hcode
  cases hcode

/-- Everything that arrives is in the file. -/
def Stored (t : TransferEnv) (path : Bytes) (processed : Processed) : Prop :=
  OnlyBytes t.incoming ∧ processed.files.content path = some (arriving t.incoming)

/-- **STOR** is answered if it does not read from a `NULL` descriptor. -/
theorem runStor_spec (h : Announced path done) :
    EndedWell (Stored t path) (runStor env t state path done) ↔
      t.descriptor ≠ none ∨ t.incoming.head? = some .noMemory := by
  unfold runStor receiveFrom
  by_cases hnull : t.descriptor = none ∧ t.incoming.head? ≠ some .noMemory
  · rw [if_pos hnull]
    constructor
    · rintro ⟨hreturned, -⟩
      cases hreturned
    · rintro (hsome | hmemory)
      · exact absurd hnull.1 hsome
      · exact absurd hmemory hnull.2
  · rw [if_neg hnull]
    refine ⟨fun _ => ?_, fun _ => ?_⟩
    · by_contra hnot
      exact hnull ⟨not_not.1 (not_or.1 hnot).1, (not_or.1 hnot).2⟩
    · cases hreceive : receiveData t.incoming with
      | none =>
        have hrefused : EndedWell (Stored t path) (ended (respond env 1 state (done ++ [])
            .fileActionNotTaken (ascii "Internal error 5")) t.descriptor t.files) :=
          endedWell_refused h [] _ _ _ rfl (by decide) (by decide)
        rwa [List.append_nil] at hrefused
      | some data =>
        obtain ⟨hbytes, rfl⟩ := receiveData_onlyBytes hreceive
        dsimp only
        cases hwrite : writeToFile t.calls t.files path (arriving t.incoming) with
        | mk files ok =>
          cases ok with
          | false => exact endedWell_refused h _ _ _ _ rfl (by decide) (by decide)
          | true =>
            exact ⟨rfl, _, h.answered _ _ rfl (by decide),
              fun _ => ⟨hbytes, writeToFile_eq hwrite⟩⟩

/-- Data in the format of a session. -/
def InFormat : SendData → Prop
  | .file _ format => format = .eplf
  | .multipleFiles _ _ format => format = .eplf
  | .rawData _ => True

theorem eplfLine_ne_nil (file : FileWithMetadata) : eplfLine file ≠ [] := by
  unfold eplfLine
  simp

/-- The pieces of data that is not a single file. -/
theorem sendLoop_inFormat {data : SendData} (hformat : InFormat data)
    (hfile : ∀ file format, data ≠ .file file format) :
    ∃ pieces, pieces.flatten = data.bytes ∧ [] ∉ pieces ∧
      SendsPieces t.dateString data .streamBinaryFile
        (setupSendProgress data .streamBinaryFile) pieces := by
  cases data with
  | file file format => exact absurd rfl (hfile file format)
  | multipleFiles files sizes format =>
    obtain rfl : format = .eplf := hformat
    refine ⟨files.map eplfLine, rfl, ?_, sendLoop_multipleFiles fun _ _ => rfl⟩
    rw [List.mem_map]
    rintro ⟨file, -, hnil⟩
    exact eplfLine_ne_nil file hnil
  | rawData content => exact sendLoop_rawData t.dateString content

theorem sendAll_pieces {data : SendData} {sendMode : SendMode} {pieces : List Bytes}
    (h : SendsPieces t.dateString data sendMode (setupSendProgress data sendMode) pieces)
    (connection : Connection) :
    sendAll t data sendMode connection = some (sendPieces connection pieces) :=
  h _ le_rfl connection

/-- Without a piece nothing is written; with one, the first write is on the descriptor. -/
theorem sendOn_null {data : SendData} {sendMode : SendMode} {pieces : List Bytes}
    (hnull : t.descriptor = none) (hnonempty : [] ∉ pieces)
    (h : SendsPieces t.dateString data sendMode (setupSendProgress data sendMode) pieces) :
    sendOn t data sendMode = if pieces = [] then some (true, none) else none := by
  unfold sendOn
  rw [hnull]
  dsimp only
  rw [sendAll_pieces h]
  cases pieces with
  | nil => rfl
  | cons piece pieces => rfl

/-- What was sent, if all was sent. -/
theorem sendOn_sent {data : SendData} {sendMode : SendMode} {pieces : List Bytes}
    {connection : Option Connection} (hnonempty : [] ∉ pieces)
    (h : SendsPieces t.dateString data sendMode (setupSendProgress data sendMode) pieces)
    (hsend : sendOn t data sendMode = some (true, connection)) :
    OnConnection t connection pieces.flatten := by
  unfold OnConnection
  cases hdescriptor : t.descriptor with
  | none =>
    rw [sendOn_null hdescriptor hnonempty h] at hsend
    split_ifs at hsend with hpieces
    obtain ⟨-, rfl⟩ := Prod.mk.inj (Option.some.inj hsend)
    rw [hpieces]
    rfl
  | some before =>
    unfold sendOn at hsend
    rw [hdescriptor] at hsend
    dsimp only at hsend
    rw [sendAll_pieces h, Option.map_some] at hsend
    obtain ⟨hresult, rfl⟩ := Prod.mk.inj (Option.some.inj hsend)
    exact (sendPieces_sent before pieces).complete hresult

theorem sendOn_file (t : TransferEnv) (file : FileWithMetadata) (format : FileSendFormat) :
    sendOn t (.file file format) .streamBinaryFile = some (false, t.descriptor) := by
  have hall : ∀ connection, sendAll t (.file file format) .streamBinaryFile connection =
      some (false, connection) :=
    fun connection => sendLoop_file t.dateString file format (Nat.succ_pos _) connection
  unfold sendOn
  cases hdescriptor : t.descriptor with
  | none =>
    dsimp only
    rw [hall]
    rfl
  | some connection =>
    dsimp only
    rw [hall, Option.map_some]

/-- The data is on the connection, and the connection closed. -/
def SentWhole (env : CommandEnv) (t : TransferEnv) (data : Option SendData)
    (processed : Processed) : Prop :=
  ∃ d, data = some d ∧ OnConnection t processed.connection d.bytes ∧ env.closeConnection = true

theorem Answered.code_eq {actions : List FtpAction} {code' : FtpReturnCode}
    (h : Answered (actions ++ [.reply code text]) code') : code' = code := by
  obtain ⟨pre, hcodes, -⟩ := h.replies
  rw [replyCodes_append] at hcodes
  have hlast : [code] = [code'] := List.append_inj_right' hcodes rfl
  exact (List.cons.inj hlast).1.symm

/-- After the loop. -/
theorem runSend_sent (h : Announced path done) {collect : FtpAction} {data : SendData}
    {noData notClosed : String} {ok : Bool} {connection : Option Connection}
    (hcollect : replyCodes [collect] = []) (hmode : getCurrentSendMode state ≠ .unsupported)
    (hsend : sendOn t data (getCurrentSendMode state) = some (ok, connection)) :
    EndedWell (SentWhole env t (some data))
        (runSend env t state done collect (some data) noData notClosed) ↔
      (ok = true → env.closeConnection = true → OnConnection t connection data.bytes) := by
  unfold runSend
  rw [if_neg hmode]
  dsimp only
  rw [hsend]
  cases ok with
  | false =>
    exact ⟨fun _ => nofun, fun _ => endedWell_refused h _ _ _ _ hcollect (by decide) (by decide)⟩
  | true =>
    dsimp only
    by_cases hclose : env.closeConnection = true
    · rw [if_neg (not_not.2 hclose)]
      constructor
      · rintro ⟨-, code, hanswered, hwhole⟩ - -
        obtain rfl := hanswered.code_eq
        obtain ⟨d, hd, hsent, -⟩ := hwhole (by decide)
        obtain rfl := Option.some.inj hd
        exact hsent
      · intro hsent
        exact ⟨rfl, _, h.answered _ _ hcollect (by decide),
          fun _ => ⟨data, rfl, hsent rfl hclose, hclose⟩⟩
    · rw [if_pos hclose]
      exact ⟨fun _ _ hclosed => absurd hclosed hclose,
        fun _ => endedWell_refused h _ _ _ _ hcollect (by decide) (by decide)⟩

theorem pieces_eq_nil {pieces : List Bytes} (hnonempty : [] ∉ pieces) (h : pieces.flatten = []) :
    pieces = [] := by
  cases pieces with
  | nil => rfl
  | cons piece pieces =>
    rw [List.flatten_cons, List.append_eq_nil_iff] at h
    exact absurd (by rw [h.1]; exact List.mem_cons_self) hnonempty

/-- A send without records: it needs the descriptor for its first piece. -/
theorem runSend_binary (h : Announced path done) {collect : FtpAction} {data : SendData}
    {noData notClosed : String} (hcollect : replyCodes [collect] = []) (hformat : InFormat data)
    (hmode : getCurrentSendMode state = .streamBinaryFile) :
    EndedWell (SentWhole env t (some data))
        (runSend env t state done collect (some data) noData notClosed) ↔
      t.descriptor ≠ none ∨ data.bytes = [] ∨ ∃ file format, data = .file file format := by
  have hsupported : getCurrentSendMode state ≠ .unsupported := by
    rw [hmode]
    nofun
  by_cases hfile : ∃ file format, data = .file file format
  · obtain ⟨file, format, rfl⟩ := hfile
    rw [runSend_sent h hcollect hsupported (by rw [hmode]; exact sendOn_file t file format)]
    exact ⟨fun _ => .inr (.inr ⟨file, format, rfl⟩), fun _ => nofun⟩
  · obtain ⟨pieces, hflatten, hnonempty, hpieces⟩ :=
      @sendLoop_inFormat t data hformat fun file format hdata => hfile ⟨file, format, hdata⟩
    have hsent : ∀ ok connection,
        sendOn t data (getCurrentSendMode state) = some (ok, connection) →
        EndedWell (SentWhole env t (some data))
          (runSend env t state done collect (some data) noData notClosed) := by
      intro ok connection hsend
      rw [runSend_sent h hcollect hsupported hsend]
      rintro rfl -
      rw [hmode] at hsend
      rw [← hflatten]
      exact sendOn_sent hnonempty hpieces hsend
    cases hdescriptor : t.descriptor with
    | some connection =>
      refine ⟨fun _ => .inl nofun, fun _ => hsent (sendPieces connection pieces).1
        (some (sendPieces connection pieces).2) ?_⟩
      unfold sendOn
      rw [hdescriptor, hmode]
      dsimp only
      rw [sendAll_pieces hpieces, Option.map_some]
    | none =>
      have hnull := sendOn_null hdescriptor hnonempty hpieces
      by_cases hnil : pieces = []
      · rw [if_pos hnil] at hnull
        rw [hnil] at hflatten
        exact ⟨fun _ => .inr (.inl hflatten.symm), fun _ => hsent _ _ (by rw [hmode]; exact hnull)⟩
      -- the first piece is written to the descriptor
      · rw [if_neg hnil] at hnull
        constructor
        · rintro ⟨hreturned, -⟩
          unfold runSend at hreturned
          rw [if_neg hsupported] at hreturned
          dsimp only at hreturned
          rw [hmode, hnull] at hreturned
          cases hreturned
        · rintro (hsome | hbytes | hdata)
          · exact absurd rfl hsome
          · exact absurd (pieces_eq_nil hnonempty (hflatten.trans hbytes)) hnil
          · exact absurd hdata hfile

/-- **RETR and LIST** are answered if what there is to send can be sent. -/
theorem runSend_spec (h : Announced path done) {collect : FtpAction} {data : Option SendData}
    {noData notClosed : String} (hcollect : replyCodes [collect] = [])
    (hformat : ∀ d, data = some d → InFormat d) :
    EndedWell (SentWhole env t data)
        (runSend env t state done collect data noData notClosed) ↔
      ∀ d, data = some d → SendWorks env t state d := by
  by_cases hmode : getCurrentSendMode state = .unsupported
  · unfold runSend SendWorks
    rw [if_pos hmode, hmode]
    have hrefused : EndedWell (SentWhole env t data) (ended (respond env 1 state (done ++ [])
        .fileActionAborted (ascii "Unsupported send mode")) t.descriptor t.files) :=
      endedWell_refused h [] _ _ _ rfl (by decide) (by decide)
    rw [List.append_nil] at hrefused
    exact ⟨fun _ _ _ => trivial, fun _ => hrefused⟩
  · cases data with
    | none =>
      unfold runSend
      rw [if_neg hmode]
      exact ⟨fun _ _ hd => (Option.some_ne_none _ hd.symm).elim,
        fun _ => endedWell_refused h _ _ _ _ hcollect (by decide) (by decide)⟩
    | some data =>
      have hworks : (∀ d, some data = some d → SendWorks env t state d) ↔
          SendWorks env t state data :=
        ⟨fun hall => hall data rfl, fun hdata d hd => Option.some.inj hd ▸ hdata⟩
      rw [hworks]
      unfold SendWorks
      cases hsendMode : getCurrentSendMode state with
      | unsupported => exact absurd hsendMode hmode
      | streamBinaryRecord =>
        -- nothing is sent, whatever there is to send
        have hpieces : SendsPieces t.dateString data .streamBinaryRecord
            (setupSendProgress data .streamBinaryRecord) [] := sendLoop_record t.dateString data
        have hsend : sendOn t data .streamBinaryRecord = some (true, t.descriptor) := by
          cases hdescriptor : t.descriptor with
          | none => rw [sendOn_null hdescriptor List.not_mem_nil hpieces, if_pos rfl]
          | some connection =>
            unfold sendOn
            rw [hdescriptor]
            dsimp only
            rw [sendAll_pieces hpieces]
            rfl
        have hnothing : OnConnection t t.descriptor data.bytes ↔ data.bytes = [] := by
          unfold OnConnection
          cases t.descriptor with
          | none => rfl
          | some connection => simp
        rw [runSend_sent h hcollect hmode (by rw [hsendMode]; exact hsend), hnothing]
        by_cases hclose : env.closeConnection = true
        · simp [hclose]
        · simp [hclose]
      | streamBinaryFile => exact runSend_binary h hcollect (hformat data rfl) hsendMode

/-! ## All commands -/

theorem answered_alone (text : Bytes) (hfinal : code.isPreliminary = false) :
    Answered [.reply code text] code :=
  @answered_quiet code [] text rfl nofun hfinal

/-- A command that transfers nothing only sends its final reply. -/
def RepliesOnce (handled : Handled) : Prop :=
  ∃ code text, handled.actions = [.reply code text] ∧ code.isPreliminary = false

theorem changeDirectory_once (cwk : Cwalk) (env : CommandEnv) (state : FTPState)
    (hcode : code.isPreliminary = false) (directory : Bytes) :
    RepliesOnce (changeDirectory cwk env state code directory) := by
  unfold changeDirectory
  split_ifs
  · split
    · exact ⟨_, _, rfl, by decide⟩
    · exact ⟨_, _, rfl, by decide⟩
    · exact ⟨_, _, rfl, by decide⟩
    · split
      · exact ⟨_, _, rfl, by decide⟩
      · exact ⟨_, _, rfl, hcode⟩
  · exact ⟨_, _, rfl, by decide⟩

theorem processPass_once (env : CommandEnv) (state : FTPState) (arg : Bytes) :
    RepliesOnce (processPass env state arg) := by
  unfold processPass verifyUser
  split
  · split_ifs
    · exact ⟨_, _, rfl, by decide⟩
    · exact ⟨_, _, rfl, by decide⟩
  · exact ⟨_, _, rfl, by decide⟩
  · split
    all_goals exact ⟨_, _, rfl, by decide⟩

theorem processPasv_once (env : CommandEnv) (state : FTPState) :
    RepliesOnce (processPasv env state) := by
  unfold processPasv
  split_ifs
  · exact ⟨_, _, rfl, by decide⟩
  all_goals
    split
    · exact ⟨_, _, rfl, by decide⟩
    · exact ⟨_, _, rfl, by decide⟩

theorem processType_once (env : CommandEnv) (state : FTPState) (info : FtpCommandTypeInformation) :
    RepliesOnce (processType env state info) := by
  unfold processType
  split
  · exact ⟨_, _, rfl, by decide⟩
  · dsimp only
    split_ifs
    all_goals exact ⟨_, _, rfl, by decide⟩

/-- **Commands without a transfer** send one reply. -/
theorem ftpProcessCommand_once (env : CommandEnv) (h : transferArgument command = none) :
    RepliesOnce (ftpProcessCommand cwk env state command) := by
  cases command with
  | user arg =>
    unfold ftpProcessCommand processUser
    dsimp only
    split_ifs
    · exact ⟨_, _, rfl, by decide⟩
    · exact ⟨_, _, rfl, by decide⟩
  | pass arg => exact processPass_once env state arg
  | pwd =>
    unfold ftpProcessCommand processPwd
    dsimp only
    split_ifs
    · split
      · exact ⟨_, _, rfl, by decide⟩
      · exact ⟨_, _, rfl, by decide⟩
    · exact ⟨_, _, rfl, by decide⟩
  | cwd arg => exact changeDirectory_once cwk env state (by decide) _
  | cdup => exact changeDirectory_once cwk env state (by decide) _
  | pasv => exact processPasv_once env state
  | type info => exact processType_once env state info
  | stor arg => cases h
  | retr arg => cases h
  | list arg => cases h
  | _ => exact ⟨_, _, rfl, by decide⟩

theorem oneFinalReply_once (h : transferArgument command = none)
    (connection : Option Connection) (files : FileSystem) :
    OneFinalReply cwk env t state command
      (ended (ftpProcessCommand cwk env state command) connection files) := by
  obtain ⟨code, text, hactions, hfinal⟩ := @ftpProcessCommand_once cwk state command env h
  refine ⟨rfl, ⟨code, ?_, fun htransfer => absurd h htransfer⟩, fun _ c hc => ?_⟩
  · rw [ended, hactions]
    exact answered_alone text hfinal
  · rw [ended, hactions] at hc
    rw [List.mem_singleton.1 hc]
    exact hfinal

/-- A transfer that ends early is answered. -/
theorem oneFinalReply_early {handled : Handled} (htransfer : transferArgument command ≠ none)
    (h : EndedEarly handled) (connection : Option Connection) (files : FileSystem) :
    OneFinalReply cwk env t state command (ended handled connection files) := by
  obtain ⟨code, hanswered, hpositive⟩ := h
  refine ⟨rfl, ⟨code, hanswered, fun _ hcode => ?_⟩, fun hnone => absurd hnone htransfer⟩
  rw [hpositive] at hcode
  cases hcode

/-- A transfer with its data connection. -/
theorem oneFinalReply_transfer {whole : Processed → Prop} {processed : Processed}
    (htransfer : transferArgument command ≠ none)
    (hwhole : whole processed ↔ WholeTransfer cwk env t state command processed) :
    OneFinalReply cwk env t state command processed ↔ EndedWell whole processed := by
  constructor
  · rintro ⟨hreturns, ⟨code, hanswered, hcode⟩, -⟩
    exact ⟨hreturns, code, hanswered, fun hpositive => hwhole.2 (hcode htransfer hpositive)⟩
  · rintro ⟨hreturns, code, hanswered, hcode⟩
    exact ⟨hreturns, ⟨code, hanswered, fun _ hpositive => hwhole.1 (hcode hpositive)⟩,
      fun hnone => absurd hnone htransfer⟩

/-- The data of RETR and LIST is in the format of a session. -/
theorem retrData_inFormat {data : SendData} (h : retrData t path = some data) : InFormat data := by
  obtain ⟨content, -, rfl⟩ := Option.map_eq_some_iff.1 h
  trivial

theorem listData_inFormat {data : SendData} (h : listData env t path = some data) :
    InFormat data := by
  unfold listData getDataToSendForList at h
  split_ifs at h
  · obtain ⟨delivered, found, sizes, -, rfl, -⟩ := getFilesInFolder_eq h
    rfl
  · obtain ⟨file, -, rfl⟩ := Option.map_eq_some_iff.1 h
    rfl

/-- What RETR sends is in its file. -/
theorem sentWhole_retr {processed : Processed} :
    SentWhole env t (retrData t path) processed ↔
      ∃ content, t.files.content path = some content ∧
        retrData t path = some (.rawData content) ∧
        OnConnection t processed.connection content ∧ env.closeConnection = true := by
  constructor
  · rintro ⟨data, hdata, hsent, hclose⟩
    obtain ⟨content, hcontent, rfl⟩ := getDataToSendForRetr_eq hdata
    exact ⟨content, hcontent, hdata, hsent, hclose⟩
  · rintro ⟨content, -, hdata, hsent, hclose⟩
    exact ⟨_, hdata, hsent, hclose⟩

theorem commandTarget_of_transferPath (h : transferPath cwk env state command = some path) :
    commandTarget cwk state command = some path :=
  (Option.filter_eq_some_iff.1 h).1

/-- A transfer command, in terms of its start and what follows it. -/
def afterStart (t : TransferEnv) (ready : Except Handled (Bytes × List FtpAction))
    (run : Bytes → List FtpAction → Processed) : Processed :=
  match ready with
  | .error handled => ended handled t.descriptor t.files
  | .ok (path, done) => run path done

/-- A transfer command is answered early, or with its data connection. -/
theorem oneFinalReply_ready {ready : Except Handled (Bytes × List FtpAction)}
    {run : Bytes → List FtpAction → Processed} {works : Bytes → Prop}
    (htransfer : transferArgument command ≠ none)
    (hready : (∃ path done, transferPath cwk env state command = some path ∧
        Announced path done ∧ ready = .ok (path, done)) ∨
      (transferPath cwk env state command = none ∧
        ∃ handled, EndedEarly handled ∧ ready = .error handled))
    (hrun : ∀ path done, commandTarget cwk state command = some path → Announced path done →
      (OneFinalReply cwk env t state command (run path done) ↔ works path)) :
    OneFinalReply cwk env t state command (afterStart t ready run) ↔
      ∀ path, transferPath cwk env state command = some path → works path := by
  rcases hready with ⟨path, done, hpath, hdone, rfl⟩ | ⟨hnone, handled, hearly, rfl⟩
  · rw [hpath, afterStart, hrun path done (commandTarget_of_transferPath hpath) hdone]
    exact ⟨fun hworks p hp => Option.some.inj hp ▸ hworks, fun hall => hall path rfl⟩
  · rw [hnone]
    exact ⟨fun _ _ => nofun, fun _ => oneFinalReply_early htransfer hearly _ _⟩

theorem storReady_cases (cwk : Cwalk) (hsend : ∀ n, env.sendResponse n = true) (state : FTPState)
    (arg : Bytes) :
    (∃ path done, transferPath cwk env state (.stor arg) = some path ∧ Announced path done ∧
        storReady cwk env state arg = .ok (path, done)) ∨
      (transferPath cwk env state (.stor arg) = none ∧
        ∃ handled, EndedEarly handled ∧ storReady cwk env state arg = .error handled) :=
  transferReady_cases hsend _ _ _

theorem retrReady_cases (cwk : Cwalk) (hsend : ∀ n, env.sendResponse n = true) (state : FTPState)
    (arg : Bytes) :
    (∃ path done, transferPath cwk env state (.retr arg) = some path ∧ Announced path done ∧
        retrReady cwk env state arg = .ok (path, done)) ∨
      (transferPath cwk env state (.retr arg) = none ∧
        ∃ handled, EndedEarly handled ∧ retrReady cwk env state arg = .error handled) :=
  transferReady_cases hsend _ _ _

theorem listReady_cases (cwk : Cwalk) (hsend : ∀ n, env.sendResponse n = true) (state : FTPState)
    (arg : Option Bytes) :
    (∃ path done, transferPath cwk env state (.list arg) = some path ∧ Announced path done ∧
        listReady cwk env state arg = .ok (path, done)) ∨
      (transferPath cwk env state (.list arg) = none ∧
        ∃ handled, EndedEarly handled ∧ listReady cwk env state arg = .error handled) :=
  transferReady_cases hsend _ _ _

/-- A command is answered exactly if its transfer has what it uses. -/
theorem runCommand_answered (cwk : Cwalk) (env : CommandEnv) (t : TransferEnv) (featureCount : ℕ)
    (state : FTPState) (command : FTPCommand) (hsend : ∀ n, env.sendResponse n = true) :
    OneFinalReply cwk env t state command (runCommand cwk env t featureCount state command) ↔
      TransferWorks cwk env t featureCount state command := by
  cases command with
  | stor arg =>
    have htransfer : transferArgument (.stor arg) ≠ none := nofun
    refine oneFinalReply_ready htransfer (storReady_cases cwk hsend state arg) ?_
    intro path done htarget hdone
    have hwhole : ∀ processed,
        Stored t path processed ↔ WholeTransfer cwk env t state (.stor arg) processed := by
      intro processed
      simp only [WholeTransfer, htarget, Option.some.injEq, exists_eq_left', Stored]
    rw [oneFinalReply_transfer htransfer (hwhole _), runStor_spec hdone]
  | retr arg =>
    have htransfer : transferArgument (.retr arg) ≠ none := nofun
    refine oneFinalReply_ready htransfer (retrReady_cases cwk hsend state arg) ?_
    intro path done htarget hdone
    have hwhole : ∀ processed, SentWhole env t (retrData t path) processed ↔
        WholeTransfer cwk env t state (.retr arg) processed := by
      intro processed
      rw [sentWhole_retr]
      simp only [WholeTransfer, htarget, Option.some.injEq, exists_eq_left']
    rw [oneFinalReply_transfer htransfer (hwhole _),
      runSend_spec hdone rfl fun _ => retrData_inFormat]
  | list arg =>
    have htransfer : transferArgument (.list arg) ≠ none := nofun
    refine oneFinalReply_ready htransfer (listReady_cases cwk hsend state arg) ?_
    intro path done htarget hdone
    have hwhole : ∀ processed, SentWhole env t (listData env t path) processed ↔
        WholeTransfer cwk env t state (.list arg) processed := by
      intro processed
      simp only [WholeTransfer, htarget, Option.some.injEq, exists_eq_left', SentWhole]
    rw [oneFinalReply_transfer htransfer (hwhole _),
      runSend_spec hdone rfl fun _ => listData_inFormat]
  | feat =>
    unfold runCommand TransferWorks
    split_ifs with hcount
    · exact ⟨fun _ => hcount, fun _ => oneFinalReply_once rfl _ _⟩
    · constructor
      · rintro ⟨hreturns, -⟩
        cases hreturns
      · intro hzero
        exact absurd hzero hcount
  | _ => exact ⟨fun _ => trivial, fun _ => oneFinalReply_once rfl _ _⟩

/-- **A command is answered with one final reply** exactly if its transfer has what it uses. A
command that returns leaves the session as `ftpProcessCommand` does, with the same replies. -/
theorem oneFinalReply_iff (cwk : Cwalk) (env : CommandEnv) (t : TransferEnv) (featureCount : ℕ)
    (state : FTPState) (command : FTPCommand) (hsend : ∀ n, env.sendResponse n = true) :
    (OneFinalReply cwk env t state command (runCommand cwk env t featureCount state command) ↔
        TransferWorks cwk env t featureCount state command) ∧
      ((runCommand cwk env t featureCount state command).returned.isSome = true →
        ∃ received written collected sent,
          Refines (runCommand cwk env t featureCount state command)
            (ftpProcessCommand cwk (env.after received written collected sent) state command)) :=
  ⟨runCommand_answered cwk env t featureCount state command hsend, runCommand_refines⟩

/-- A user who is logged in and has sent PORT and TYPE I. -/
def readyState : FTPState :=
  { defaultState (ascii "/srv/ftp") with
    account := .ok .read (ascii "anonymous")
    currentType := transmissionTypeImage
    dataSettings := .active ⟨0, 2048⟩ }

/-- The data connection is there, and every file can be read. -/
def servedEnv : CommandEnv :=
  { quietEnv with
    stat := fun _ => .file
    access := fun _ => true
    connectionAtOnce := true
    closeConnection := true }

/-- A folder with one file, and a client that sends one byte. -/
def oneFile (descriptor : Option Connection) : TransferEnv where
  descriptor := descriptor
  incoming := [.bytes 0x41 []]
  files := ⟨fun _ => some (ascii "AB"), fun _ => none, fun _ => none⟩
  calls := ⟨true, true, true, id, id, true, true, id⟩
  dateString := fun _ => none

theorem retr_oneReply : OneFinalReply Cwalk.plain servedEnv (oneFile (some ⟨[], []⟩)) readyState
    (.retr (ascii "a"))
    (runCommand Cwalk.plain servedEnv (oneFile (some ⟨[], []⟩)) 0 readyState (.retr (ascii "a"))) :=
  (oneFinalReply_iff Cwalk.plain servedEnv (oneFile (some ⟨[], []⟩)) 0 readyState
    (.retr (ascii "a")) fun _ => rfl).1.2 fun _ _ _ _ => .inl nofun

/-- STOR reads from the data connection without a look at its descriptor. -/
theorem stor_noReply : (∀ n, servedEnv.sendResponse n = true) ∧
    ¬ OneFinalReply Cwalk.plain servedEnv (oneFile none) readyState (.stor (ascii "a"))
      (runCommand Cwalk.plain servedEnv (oneFile none) 0 readyState (.stor (ascii "a"))) := by
  refine ⟨fun _ => rfl, fun h => ?_⟩
  have hnot : (runCommand Cwalk.plain servedEnv (oneFile none) 0 readyState
      (.stor (ascii "a"))).returned.isSome = false := by decide +kernel
  rw [h.returns] at hnot
  cases hnot

end SimpleServer.Ftp
