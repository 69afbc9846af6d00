import SimpleServer.Ftp.Command
import SimpleServer.Proof.ReaderCuts

/-!
# The end of a control connection

A round that finds no line answers as it does to a line it does not know, and goes on. At the
end of the stream every further round is one of these, so the loop is only left by a reply that
cannot be written or by a command that ends the session.

* `ftpProcessCommand_replied`: a command replies at least once, and goes on when all its replies
  are out and it is not a TYPE that ends the session.
* `round_line`, `round_noLine`: a round takes the next line of the stream, or none.
* `controlLoop_left_iff`: **when the loop is left**, and that no line is processed twice.
-/

namespace SimpleServer.Ftp

open Utils Http

variable {strings : CommandStrings} {cwk : Cwalk}

/-! ## The replies of a command -/

/-- At least one reply was sent, and the session goes on when it could write all of them. -/
structure Replied (env : CommandEnv) (handled : Handled) : Prop where
  pos : 0 < handled.replyCount
  alive : handled.alive = true ↔ ∀ i < handled.replyCount, env.sendResponse i = true

variable {env : CommandEnv} {state : FTPState} {done : List FtpAction}

theorem respond_replyCount (env : CommandEnv) (n : ℕ) (state : FTPState) (done : List FtpAction)
    (code : FtpReturnCode) (text : Bytes) :
    (respond env n state done code text).replyCount = done.countP FtpAction.isReply + 1 := by
  unfold respond Handled.replyCount
  rw [List.countP_append]
  rfl

/-- A last reply, after the replies before it are out. -/
theorem respond_replied {n : ℕ} (hcount : done.countP FtpAction.isReply = n)
    (hout : ∀ i < n, env.sendResponse i = true) (code : FtpReturnCode) (text : Bytes) :
    Replied env (respond env n state done code text) := by
  have hreplies := respond_replyCount env n state done code text
  rw [hcount] at hreplies
  constructor
  · omega
  · rw [hreplies]
    constructor
    · intro halive i hi
      rcases Nat.lt_succ_iff_lt_or_eq.1 hi with hlt | rfl
      · exact hout i hlt
      · exact halive
    · intro hall
      exact hall n (Nat.lt_succ_self n)

theorem respondFirst_replied (hcount : done.countP FtpAction.isReply = 0) (code : FtpReturnCode)
    (text : Bytes) : Replied env (respond env 0 state done code text) :=
  respond_replied hcount (fun i hi => absurd hi (Nat.not_lt_zero i)) code text

theorem respondOnly_replied (code : FtpReturnCode) (text : String) :
    Replied env (respondOnly env state code text) :=
  respondFirst_replied rfl code _

theorem respondSecond_replied (hcount : done.countP FtpAction.isReply = 1)
    (hout : env.sendResponse 0 = true) (code : FtpReturnCode) (text : Bytes) :
    Replied env (respond env 1 state done code text) := by
  refine respond_replied hcount ?_ code text
  intro i hi
  obtain rfl : i = 0 := by omega
  exact hout

/-- A reply that could not be written ends the command. -/
theorem notSent_replied (hcount : done.countP FtpAction.isReply = 1)
    (hout : ¬ env.sendResponse 0 = true) : Replied env ⟨state, done, false⟩ := by
  have hreplies : (⟨state, done, false⟩ : Handled).replyCount = 1 := hcount
  constructor
  · omega
  · rw [hreplies]
    constructor
    · intro halive
      cases halive
    · intro hall
      exact absurd (hall 0 Nat.one_pos) hout

theorem countP_reply (hcount : done.countP FtpAction.isReply = 0) (code : FtpReturnCode)
    (text : Bytes) : (done ++ [FtpAction.reply code text]).countP FtpAction.isReply = 1 := by
  rw [List.countP_append, hcount]
  rfl

/-- A transfer that goes on after it waited has sent one reply. -/
theorem awaitDataConnection_replied (env : CommandEnv) (state : FTPState)
    (hcount : done.countP FtpAction.isReply = 0) (errors : WaitErrors) :
    (∃ done', awaitDataConnection env state done errors = .ok done' ∧
        done'.countP FtpAction.isReply = 1 ∧ env.sendResponse 0 = true) ∨
      ∃ handled, awaitDataConnection env state done errors = .error handled ∧
        Replied env handled := by
  unfold awaitDataConnection
  by_cases honce : env.connectionAtOnce = true
  · rw [if_pos honce]
    by_cases hout : env.sendResponse 0 = true
    · dsimp only
      rw [if_pos hout]
      exact .inl ⟨_, rfl, countP_reply hcount _ _, hout⟩
    · dsimp only
      rw [if_neg hout]
      exact .inr ⟨_, rfl, notSent_replied (countP_reply hcount _ _) hout⟩
  · rw [if_neg honce]
    by_cases hout : env.sendResponse 0 = true
    · dsimp only
      rw [if_neg (not_not.2 hout)]
      by_cases hclock : env.startClock = true
      · rw [if_neg (not_not.2 hclock)]
        have hsecond := fun code text => @respondSecond_replied env state _
          (countP_reply hcount .dataConnectionWaitingForOpen
            (ascii "Ok. Waiting for data connection")) hout code text
        cases waitLoop env.rounds with
        | established => exact .inl ⟨_, rfl, countP_reply hcount _ _, hout⟩
        | sleepFailed => exact .inr ⟨_, rfl, hsecond _ _⟩
        | clockFailed => exact .inr ⟨_, rfl, hsecond _ _⟩
        | timedOut => exact .inr ⟨_, rfl, hsecond _ _⟩
        | notYet => exact .inr ⟨_, rfl, hsecond _ _⟩
      · rw [if_pos hclock]
        exact .inr ⟨_, rfl, respondSecond_replied (countP_reply hcount _ _) hout _ _⟩
    · dsimp only
      rw [if_pos hout]
      exact .inr ⟨_, rfl, notSent_replied (countP_reply hcount _ _) hout⟩

theorem resolveForTransfer_replied {arg : Bytes} {notLoggedIn : String} {handled : Handled}
    (h : resolveForTransfer cwk env state arg notLoggedIn = .error handled) :
    Replied env handled := by
  unfold resolveForTransfer at h
  by_cases hok : state.account.isOk = true
  · rw [if_neg (not_not.2 hok)] at h
    by_cases hmode : state.dataSettings = .none
    · rw [if_pos hmode] at h
      cases h
      exact respondOnly_replied _ _
    · rw [if_neg hmode] at h
      split at h
      · cases h
        exact respondOnly_replied _ _
      · cases h
  · rw [if_pos hok] at h
    cases h
    exact respondOnly_replied _ _

theorem refuse_replied (path : Bytes) (text : String) :
    Replied env (refuse env state path text) :=
  respondFirst_replied rfl _ _

theorem storeData_replied {path : Bytes} (hcount : done.countP FtpAction.isReply = 1)
    (hout : env.sendResponse 0 = true) : Replied env (storeData env state path done) := by
  unfold storeData
  split
  · exact respondSecond_replied hcount hout _ _
  · have hwritten : ∀ data,
        (done ++ [FtpAction.writeToFile path data]).countP FtpAction.isReply = 1 := by
      intro data
      rw [List.countP_append, hcount]
      rfl
    dsimp only
    split_ifs
    · exact respondSecond_replied (hwritten _) hout _ _
    · exact respondSecond_replied (hwritten _) hout _ _

theorem sendCollected_replied {collect : FtpAction} (hcollect : collect.isReply = false)
    (hcount : done.countP FtpAction.isReply = 1) (hout : env.sendResponse 0 = true)
    (noData notClosed : String) :
    Replied env (sendCollected env state done collect noData notClosed) := by
  have hcollected : (done ++ [collect]).countP FtpAction.isReply = 1 := by
    rw [List.countP_append, hcount, List.countP_singleton, hcollect]
    rfl
  unfold sendCollected
  by_cases hmode : getCurrentSendMode state = .unsupported
  · rw [if_pos hmode]
    exact respondSecond_replied hcount hout _ _
  · rw [if_neg hmode]
    dsimp only
    split_ifs
    all_goals exact respondSecond_replied hcollected hout _ _

theorem processStor_replied (arg : Bytes) : Replied env (processStor cwk env state arg) := by
  unfold processStor
  split
  · rename_i hresolve
    exact resolveForTransfer_replied hresolve
  · rename_i path hresolve
    split
    · exact refuse_replied _ _
    · exact refuse_replied _ _
    all_goals
      rcases @awaitDataConnection_replied [.resolved path] env state rfl
        ⟨"Internal error 2", "Internal error 3", "Internal error 4"⟩ with
        ⟨done, hresult, hcount, hout⟩ | ⟨handled, hresult, hreplied⟩
      · rw [hresult]
        exact storeData_replied hcount hout
      · rw [hresult]
        exact hreplied

theorem processRetr_replied (arg : Bytes) : Replied env (processRetr cwk env state arg) := by
  unfold processRetr
  split
  · rename_i hresolve
    exact resolveForTransfer_replied hresolve
  · rename_i path hresolve
    split
    · exact refuse_replied _ _
    · exact refuse_replied _ _
    · exact refuse_replied _ _
    · by_cases haccess : env.access path = true
      · rw [if_neg (not_not.2 haccess)]
        rcases @awaitDataConnection_replied [.resolved path] env state rfl
          ⟨"Internal error 8", "Internal error 9", "Internal error 10"⟩ with
          ⟨done, hresult, hcount, hout⟩ | ⟨handled, hresult, hreplied⟩
        · rw [hresult]
          exact sendCollected_replied rfl hcount hout _ _
        · rw [hresult]
          exact hreplied
      · rw [if_pos haccess]
        exact refuse_replied _ _

theorem listFound_replied (path : Bytes) (fileType : String) :
    Replied env (listFound env state path fileType) := by
  unfold listFound
  by_cases haccess : env.access path = true
  · rw [if_neg (not_not.2 haccess)]
    rcases @awaitDataConnection_replied [.resolved path] env state rfl
      ⟨"Internal error 15", "Internal error 16", "Internal  17"⟩ with
      ⟨done, hresult, hcount, hout⟩ | ⟨handled, hresult, hreplied⟩
    · rw [hresult]
      exact sendCollected_replied rfl hcount hout _ _
    · rw [hresult]
      exact hreplied
  · rw [if_pos haccess]
    exact refuse_replied _ _

theorem processList_replied (arg : Option Bytes) :
    Replied env (processList cwk env state arg) := by
  unfold processList
  split
  · rename_i hresolve
    exact resolveForTransfer_replied hresolve
  · split
    · exact refuse_replied _ _
    · exact refuse_replied _ _
    · exact listFound_replied _ _
    · exact listFound_replied _ _

theorem processPass_replied (arg : Bytes) : Replied env (processPass env state arg) := by
  unfold processPass
  split
  · split_ifs
    · exact respondOnly_replied _ _
    · exact respondOnly_replied _ _
  · exact respondOnly_replied _ _
  · unfold verifyUser
    split
    all_goals exact respondOnly_replied _ _

theorem changeDirectory_replied (code : FtpReturnCode) (directory : Bytes) :
    Replied env (changeDirectory cwk env state code directory) := by
  unfold changeDirectory
  by_cases hok : state.account.isOk = true
  · rw [if_neg (not_not.2 hok)]
    split
    · exact respondOnly_replied _ _
    · exact respondOnly_replied _ _
    · exact respondOnly_replied _ _
    · split
      · exact respondOnly_replied _ _
      · exact respondFirst_replied rfl _ _
  · rw [if_pos hok]
    exact respondOnly_replied _ _

theorem processPwd_replied : Replied env (processPwd env state) := by
  unfold processPwd
  by_cases hok : state.account.isOk = true
  · rw [if_neg (not_not.2 hok)]
    split
    · exact respondOnly_replied _ _
    · exact respondFirst_replied rfl _ _
  · rw [if_pos hok]
    exact respondOnly_replied _ _

theorem processPasv_replied : Replied env (processPasv env state) := by
  unfold processPasv
  by_cases hport : env.passivePort = 0
  · rw [if_pos hport]
    exact respondOnly_replied _ _
  · rw [if_neg hport]
    split
    · exact respondOnly_replied _ _
    · split_ifs
      · exact respondFirst_replied rfl _ _
      · exact respondFirst_replied rfl _ _

/-- TYPE with a type that is not supported. -/
def FTPCommand.endsSession : FTPCommand → Bool
  | .type (.normal base) =>
    base &&& transmissionTypeMaskBase = transmissionTypeAscii ||
      base &&& transmissionTypeMaskBase = transmissionTypeEbcdic
  | _ => false

theorem processType_replied (info : FtpCommandTypeInformation) :
    if (FTPCommand.type info).endsSession then
      0 < (processType env state info).replyCount ∧ (processType env state info).alive = false
    else Replied env (processType env state info) := by
  cases info with
  | other => exact respondOnly_replied _ _
  | normal base =>
    unfold processType FTPCommand.endsSession
    dsimp only
    by_cases hascii : base &&& transmissionTypeMaskBase = transmissionTypeAscii
    · rw [if_pos hascii, if_pos (by simp [hascii])]
      exact ⟨(@respondOnly_replied env state _ _).pos, rfl⟩
    · rw [if_neg hascii]
      by_cases hebcdic : base &&& transmissionTypeMaskBase = transmissionTypeEbcdic
      · rw [if_pos hebcdic, if_pos (by simp [hebcdic])]
        exact ⟨(@respondOnly_replied env state _ _).pos, rfl⟩
      · rw [if_neg hebcdic, if_neg (by simp [hascii, hebcdic])]
        split_ifs
        · exact respondOnly_replied _ _
        · exact respondOnly_replied _ _

/-- **The replies of a command.** -/
theorem ftpProcessCommand_replied (cwk : Cwalk) (env : CommandEnv) (state : FTPState)
    (command : FTPCommand) :
    if command.endsSession then
      0 < (ftpProcessCommand cwk env state command).replyCount ∧
        (ftpProcessCommand cwk env state command).alive = false
    else Replied env (ftpProcessCommand cwk env state command) := by
  cases command with
  | user arg =>
    show Replied env (processUser env state arg)
    unfold processUser
    split_ifs
    · exact respondOnly_replied _ _
    · exact respondOnly_replied _ _
  | pass arg => exact processPass_replied arg
  | pwd => exact processPwd_replied
  | cwd arg => exact changeDirectory_replied _ _
  | cdup => exact changeDirectory_replied _ _
  | pasv => exact processPasv_replied
  | feat => exact respondOnly_replied _ _
  | port info => exact respondOnly_replied _ _
  | stor arg => exact processStor_replied arg
  | retr arg => exact processRetr_replied arg
  | list arg => exact processList_replied arg
  | type info => exact processType_replied info
  | auth mechanism => exact respondOnly_replied _ _
  | syst => exact respondOnly_replied _ _
  | noop => exact respondOnly_replied _ _
  | other => exact respondOnly_replied _ _

/-! ## The lines of a stream -/

/-- The lines of a stream, as the search for their ends finds them. -/
def ftpLines (stream : Bytes) : List Bytes :=
  match _h : scan ftpCommandSeperators stream 0 with
  | none => []
  | some n => stream.take (n - ftpCommandSeperators.length) :: ftpLines (stream.drop n)
termination_by stream.length
decreasing_by
  have := scan_le _h
  rw [List.length_drop]
  omega

/-- The lines that are left of a stream. -/
def linesLeft : Option Bytes → List Bytes
  | none => []
  | some left => ftpLines left

theorem ftpLines_none {stream : Bytes} (h : scan ftpCommandSeperators stream 0 = none) :
    ftpLines stream = [] := by
  rw [ftpLines]
  split
  · rfl
  · rename_i n hscan
    rw [h] at hscan
    cases hscan

theorem ftpLines_some {stream : Bytes} {n : ℕ}
    (h : scan ftpCommandSeperators stream 0 = some n) :
    ftpLines stream =
      stream.take (n - ftpCommandSeperators.length) :: ftpLines (stream.drop n) := by
  rw [ftpLines]
  split
  · rename_i hscan
    rw [h] at hscan
    cases hscan
  · rename_i m hscan
    rw [h] at hscan
    cases hscan
    rfl

/-- With their ends the lines are the beginning of the stream. -/
theorem ftpLines_start (stream : Bytes) :
    (ftpLines stream).flatMap (· ++ ftpCommandSeperators) <+: stream := by
  induction hlen : stream.length using Nat.strong_induction_on generalizing stream with
  | _ len ih =>
    cases hscan : scan ftpCommandSeperators stream 0 with
    | none =>
      rw [ftpLines_none hscan]
      exact List.nil_prefix
    | some n =>
      have hle := scan_le hscan
      have hshorter : (stream.drop n).length < len := by
        rw [List.length_drop]
        omega
      obtain ⟨rest, hrest⟩ := ih _ hshorter (stream.drop n) rfl
      rw [ftpLines_some hscan, List.flatMap_cons, scan_take hscan]
      refine ⟨rest, ?_⟩
      rw [List.append_assoc, hrest, List.take_append_drop]

section Reading

variable {reader : BufferedReader} {left : Option Bytes}

/-- A reader that stands before a line delivers it and then stands behind it. -/
theorem read_line (h : Delivers reader left) {line : Bytes} {lines : List Bytes}
    (hlines : linesLeft left = line :: lines) :
    (bufferedReaderGetUntilDelimiter reader ftpCommandSeperators).2 = .ok line ∧
      ∃ left', Delivers (bufferedReaderGetUntilDelimiter reader ftpCommandSeperators).1 left' ∧
        linesLeft left' = lines := by
  obtain ⟨hdelivers, hresult⟩ := delivers_step h (.getUntilDelimiter ftpCommandSeperators)
  cases left with
  | none => cases hlines
  | some stream =>
    unfold linesLeft at hlines
    unfold streamStep streamCall at hdelivers
    unfold streamResult streamCall at hresult
    dsimp only at hlines hdelivers hresult
    cases hscan : scan ftpCommandSeperators stream 0 with
    | none =>
      rw [ftpLines_none hscan] at hlines
      cases hlines
    | some n =>
      rw [ftpLines_some hscan] at hlines
      obtain ⟨rfl, rfl⟩ := List.cons.inj hlines
      rw [hscan] at hdelivers hresult
      exact ⟨Option.some.inj hresult, _, hdelivers, rfl⟩

/-- A reader without a line before it comes to the end of the stream. -/
theorem read_noLine (h : Delivers reader left) (hlines : linesLeft left = []) :
    (bufferedReaderGetUntilDelimiter reader ftpCommandSeperators).2 = .eof ∧
      Delivers (bufferedReaderGetUntilDelimiter reader ftpCommandSeperators).1 none := by
  obtain ⟨hdelivers, hresult⟩ := delivers_step h (.getUntilDelimiter ftpCommandSeperators)
  cases left with
  | none => exact ⟨Option.some.inj hresult, hdelivers⟩
  | some stream =>
    unfold linesLeft at hlines
    unfold streamStep streamCall at hdelivers
    unfold streamResult streamCall at hresult
    dsimp only at hlines hdelivers hresult
    cases hscan : scan ftpCommandSeperators stream 0 with
    | none =>
      rw [hscan] at hdelivers hresult
      exact ⟨Option.some.inj hresult, hdelivers⟩
    | some n =>
      rw [ftpLines_some hscan] at hlines
      cases hlines

end Reading

/-! ## A round -/

section Round

variable {env : ControlEnv} {connection : ControlConnection} {n : ℕ}

/-- The command that a round finds. -/
def roundCommand (strings : CommandStrings) (env : ControlEnv) (connection : ControlConnection)
    (n : ℕ) : Option FTPCommand :=
  (parseSingleFtpCommand strings (env.rounds n).allocated connection.reader).2

theorem parseSingle_reader (strings : CommandStrings) (allocated : Bool) (reader : BufferedReader) :
    (parseSingleFtpCommand strings allocated reader).1 =
      (bufferedReaderGetUntilDelimiter reader ftpCommandSeperators).1 := by
  unfold parseSingleFtpCommand
  split
  · rename_i hread
    rw [hread]
  · rename_i hother hread
    rw [hread]

theorem parseSingle_line {allocated : Bool} {reader : BufferedReader} {line : Bytes}
    (h : (bufferedReaderGetUntilDelimiter reader ftpCommandSeperators).2 = .ok line) :
    (parseSingleFtpCommand strings allocated reader).2 =
      parseCommandLine strings allocated line := by
  unfold parseSingleFtpCommand
  split
  · rename_i hread
    rw [hread] at h
    cases h
    rfl
  · rename_i hother hread
    rw [hread] at h
    exact absurd h (hother line)

theorem controlRound_stopped (h : connection.running = false) :
    controlRound strings cwk env connection n = connection := by
  unfold controlRound
  rw [if_pos (by rw [h]; exact Bool.false_ne_true)]

theorem controlRound_none (cwk : Cwalk) (h : connection.running = true)
    (hcommand : roundCommand strings env connection n = none) :
    (controlRound strings cwk env connection n).sent = connection.sent + 1 ∧
      (controlRound strings cwk env connection n).running = env.replies connection.sent := by
  unfold roundCommand at hcommand
  unfold controlRound
  rw [if_neg (not_not.2 h)]
  dsimp only
  rw [hcommand]
  exact ⟨rfl, rfl⟩

theorem controlRound_some (cwk : Cwalk) {command : FTPCommand} (h : connection.running = true)
    (hcommand : roundCommand strings env connection n = some command) :
    (controlRound strings cwk env connection n).sent = connection.sent +
        (ftpProcessCommand cwk (env.commandEnv n connection.sent) connection.state
          command).replyCount ∧
      (controlRound strings cwk env connection n).running =
        (ftpProcessCommand cwk (env.commandEnv n connection.sent) connection.state
          command).alive := by
  unfold roundCommand at hcommand
  unfold controlRound
  rw [if_neg (not_not.2 h)]
  dsimp only
  rw [hcommand]
  exact ⟨rfl, rfl⟩

/-- A round whose loop goes on has sent a reply, and could write all it has sent. -/
theorem controlRound_sent (h : connection.running = true)
    (hnext : (controlRound strings cwk env connection n).running = true) :
    connection.sent < (controlRound strings cwk env connection n).sent ∧
      ∀ i, connection.sent ≤ i → i < (controlRound strings cwk env connection n).sent →
        env.replies i = true := by
  cases hcommand : roundCommand strings env connection n with
  | none =>
    obtain ⟨hsent, hrunning⟩ := controlRound_none cwk h hcommand
    rw [hsent]
    refine ⟨Nat.lt_succ_self _, ?_⟩
    intro i hle hlt
    obtain rfl : i = connection.sent := by omega
    rw [← hrunning]
    exact hnext
  | some command =>
    obtain ⟨hsent, hrunning⟩ := controlRound_some cwk h hcommand
    have hreplied := ftpProcessCommand_replied cwk (env.commandEnv n connection.sent)
      connection.state command
    rw [hrunning] at hnext
    split_ifs at hreplied
    · rw [hreplied.2] at hnext
      cases hnext
    · have hpos := hreplied.pos
      have hall := hreplied.alive.1 hnext
      rw [hsent]
      refine ⟨by omega, ?_⟩
      intro i hle hlt
      have hwritten : env.replies (connection.sent + (i - connection.sent)) = true :=
        hall (i - connection.sent) (by omega)
      rwa [Nat.add_sub_cancel' hle] at hwritten

/-- Where all replies can be written only a TYPE that ends the session stops the loop. -/
theorem controlRound_goesOn (h : connection.running = true) (hreplies : ∀ i, env.replies i = true)
    (hcommand : ∀ command, roundCommand strings env connection n = some command →
      command.endsSession = false) :
    (controlRound strings cwk env connection n).running = true := by
  cases hround : roundCommand strings env connection n with
  | none =>
    rw [(controlRound_none cwk h hround).2]
    exact hreplies _
  | some command =>
    have hreplied := ftpProcessCommand_replied cwk (env.commandEnv n connection.sent)
      connection.state command
    rw [hcommand command hround, if_neg Bool.false_ne_true] at hreplied
    rw [(controlRound_some cwk h hround).2]
    exact hreplied.alive.2 fun i _ => hreplies _

theorem controlRound_ends {command : FTPCommand} (h : connection.running = true)
    (hround : roundCommand strings env connection n = some command)
    (hends : command.endsSession = true) :
    (controlRound strings cwk env connection n).running = false := by
  have hreplied := ftpProcessCommand_replied cwk (env.commandEnv n connection.sent)
    connection.state command
  rw [if_pos hends] at hreplied
  rw [(controlRound_some cwk h hround).2]
  exact hreplied.2

/-- The reader of the next round has discarded what was consumed. -/
theorem controlRound_delivers (h : connection.running = true) {left : Option Bytes}
    (hleft : Delivers (bufferedReaderGetUntilDelimiter connection.reader
      ftpCommandSeperators).1 left) :
    Delivers (controlRound strings cwk env connection n).reader left := by
  have hreader : (controlRound strings cwk env connection n).reader =
      bufferedReaderInvalidateOldData (bufferedReaderGetUntilDelimiter connection.reader
        ftpCommandSeperators).1 (env.rounds n).copied := by
    rw [← parseSingle_reader strings (env.rounds n).allocated]
    unfold controlRound
    rw [if_neg (not_not.2 h)]
    dsimp only
    split
    · rfl
    · rfl
  have hstep := (delivers_step hleft (.invalidateOldData (env.rounds n).copied)).1
  rw [hreader]
  cases left with
  | none => exact hstep
  | some left => exact hstep

/-- **A round with a line** takes it, and the next round stands behind it. -/
theorem round_line (strings : CommandStrings) (cwk : Cwalk) (env : ControlEnv) (n : ℕ)
    (h : connection.running = true) {left : Option Bytes}
    (hleft : Delivers connection.reader left) {line : Bytes} {lines : List Bytes}
    (hlines : linesLeft left = line :: lines) :
    roundCommand strings env connection n =
        parseCommandLine strings (env.rounds n).allocated line ∧
      ∃ left', Delivers (controlRound strings cwk env connection n).reader left' ∧
        linesLeft left' = lines := by
  obtain ⟨hread, left', hleft', hlines'⟩ := read_line hleft hlines
  exact ⟨parseSingle_line hread, left', controlRound_delivers h hleft', hlines'⟩

/-- **A round without a line** finds no command, and so does every round after it. -/
theorem round_noLine (strings : CommandStrings) (cwk : Cwalk) (env : ControlEnv) (n : ℕ)
    (h : connection.running = true) {left : Option Bytes}
    (hleft : Delivers connection.reader left) (hlines : linesLeft left = []) :
    roundCommand strings env connection n = none ∧
      Delivers (controlRound strings cwk env connection n).reader none := by
  obtain ⟨hread, hleft'⟩ := read_noLine hleft hlines
  refine ⟨?_, controlRound_delivers h hleft'⟩
  unfold roundCommand parseSingleFtpCommand
  split
  · rename_i hok
    rw [hok] at hread
    cases hread
  · rfl

end Round

/-! ## The rounds of a connection -/

section Rounds

variable {env : ControlEnv} {start : ControlConnection} {stream : Bytes} {n : ℕ}

/-- A loop that has been left is not entered again. -/
theorem controlRounds_stopped {m : ℕ}
    (h : (controlRounds strings cwk env start n).running = false) (hle : n ≤ m) :
    (controlRounds strings cwk env start m).running = false := by
  induction m, hle using Nat.le_induction with
  | base => exact h
  | succ m _ ih =>
    rw [controlRounds, controlRound_stopped ih]
    exact ih

theorem controlRounds_running {m : ℕ} (hle : m ≤ n)
    (h : (controlRounds strings cwk env start n).running = true) :
    (controlRounds strings cwk env start m).running = true := by
  by_contra hstopped
  rw [controlRounds_stopped (Bool.eq_false_iff.2 hstopped) hle] at h
  cases h

/-- While the loop goes on every round has sent a reply, and all of them were written. -/
theorem controlRounds_sent {reader : BufferedReader} {state : FTPState}
    (h : (controlRounds strings cwk env (startConnection env reader state) n).running = true) :
    n < (controlRounds strings cwk env (startConnection env reader state) n).sent ∧
      ∀ i < (controlRounds strings cwk env (startConnection env reader state) n).sent,
        env.replies i = true := by
  induction n with
  | zero =>
    refine ⟨Nat.one_pos, ?_⟩
    intro i hi
    obtain rfl : i = 0 := by
      have hone : i < 1 := hi
      omega
    exact h
  | succ n ih =>
    have hbefore := controlRounds_running (Nat.le_succ n) h
    obtain ⟨hcount, hwritten⟩ := ih hbefore
    obtain ⟨hmore, hnew⟩ := controlRound_sent hbefore h
    rw [controlRounds]
    refine ⟨by omega, ?_⟩
    intro i hi
    rcases Nat.lt_or_ge i (controlRounds strings cwk env (startConnection env reader state) n).sent
      with hold | hge
    · exact hwritten i hold
    · exact hnew i hge hi

theorem linesProcessed_succ (strings : CommandStrings) (cwk : Cwalk) (env : ControlEnv)
    (start : ControlConnection) (n : ℕ) :
    linesProcessed strings cwk env start (n + 1) =
      linesProcessed strings cwk env start n ++
        roundLine (controlRounds strings cwk env start n) := by
  unfold linesProcessed
  rw [List.range_succ, List.flatMap_append, List.flatMap_singleton]

/-- A round adds the next line to those that were taken before. -/
theorem take_roundLine {connection : ControlConnection} {taken lines : List Bytes}
    {left : Option Bytes} (h : connection.running = true) (htaken : taken = lines.take n)
    (hleft : Delivers connection.reader left) (hlines : linesLeft left = lines.drop n) :
    taken ++ roundLine connection = lines.take (n + 1) := by
  rw [htaken]
  rcases Nat.lt_or_ge n lines.length with hlt | hge
  · rw [List.drop_eq_getElem_cons hlt] at hlines
    have hline : roundLine connection = [lines[n]] := by
      unfold roundLine
      rw [if_pos h, (read_line hleft hlines).1]
    rw [hline, List.take_concat_get' _ _ hlt]
  · rw [List.drop_of_length_le hge] at hlines
    have hline : roundLine connection = [] := by
      unfold roundLine
      rw [if_pos h, (read_noLine hleft hlines).1]
    rw [hline, List.append_nil, List.take_of_length_le hge,
      List.take_of_length_le (Nat.le_succ_of_le hge)]

/-- **Where the loop stands** after some rounds: as many lines of the stream are behind it. -/
theorem controlRounds_lines (hstart : Delivers start.reader (some stream))
    (h : (controlRounds strings cwk env start n).running = true) :
    linesProcessed strings cwk env start n = (ftpLines stream).take n ∧
      ∃ left, Delivers (controlRounds strings cwk env start n).reader left ∧
        linesLeft left = (ftpLines stream).drop n := by
  induction n with
  | zero => exact ⟨rfl, some stream, hstart, rfl⟩
  | succ n ih =>
    have hbefore := controlRounds_running (Nat.le_succ n) h
    obtain ⟨htaken, left, hleft, hlines⟩ := ih hbefore
    refine ⟨?_, ?_⟩
    · rw [linesProcessed_succ]
      exact take_roundLine hbefore htaken hleft hlines
    · rcases Nat.lt_or_ge n (ftpLines stream).length with hlt | hge
      · rw [List.drop_eq_getElem_cons hlt] at hlines
        exact (round_line strings cwk env n hbefore hleft hlines).2
      · rw [List.drop_of_length_le hge] at hlines
        rw [List.drop_of_length_le (Nat.le_succ_of_le hge)]
        exact ⟨none, (round_noLine strings cwk env n hbefore hleft hlines).2, rfl⟩

theorem linesProcessed_start (strings : CommandStrings) (cwk : Cwalk) (env : ControlEnv)
    (hstart : Delivers start.reader (some stream)) (n : ℕ) :
    linesProcessed strings cwk env start n <+: ftpLines stream := by
  induction n with
  | zero => exact List.nil_prefix
  | succ n ih =>
    have hmore := linesProcessed_succ strings cwk env start n
    cases hrunning : (controlRounds strings cwk env start n).running with
    | false =>
      have hnone : roundLine (controlRounds strings cwk env start n) = [] := by
        unfold roundLine
        rw [if_neg (by rw [hrunning]; exact Bool.false_ne_true)]
      rw [hmore, hnone, List.append_nil]
      exact ih
    | true =>
      -- the last round may have left the loop, but its line is the next one
      obtain ⟨htaken, left, hleft, hlines⟩ := controlRounds_lines hstart hrunning
      rw [hmore, (take_roundLine hrunning htaken hleft hlines)]
      exact List.take_prefix _ _

/-! ## When the loop is left -/

/-- The stream has a line that is a TYPE command which ends the session, and there is memory for
the command in its round. -/
def HasEndingLine (strings : CommandStrings) (env : ControlEnv) (stream : Bytes) : Prop :=
  ∃ n line command, (ftpLines stream)[n]? = some line ∧
    parseCommandLine strings (env.rounds n).allocated line = some command ∧
    command.endsSession = true

/-- Where every reply can be written and no line ends the session, every round is followed by
another one. -/
theorem controlRounds_forever {reader : BufferedReader} {state : FTPState}
    (hreader : Delivers reader (some stream)) (hreplies : ∀ i, env.replies i = true)
    (hnone : ¬ HasEndingLine strings env stream) (n : ℕ) :
    (controlRounds strings cwk env (startConnection env reader state) n).running = true := by
  induction n with
  | zero => exact hreplies 0
  | succ n ih =>
    obtain ⟨-, left, hleft, hlines⟩ := controlRounds_lines hreader ih
    refine controlRound_goesOn ih hreplies ?_
    intro command hcommand
    rcases Nat.lt_or_ge n (ftpLines stream).length with hlt | hge
    · rw [List.drop_eq_getElem_cons hlt] at hlines
      rw [(round_line strings cwk env n ih hleft hlines).1] at hcommand
      by_contra hends
      exact hnone ⟨n, _, command, List.getElem?_eq_getElem hlt, hcommand,
        Bool.eq_true_of_not_eq_false hends⟩
    · rw [List.drop_of_length_le hge] at hlines
      rw [(round_noLine strings cwk env n ih hleft hlines).1] at hcommand
      cases hcommand

/-- A line that ends the session is reached, unless the loop was left before. -/
theorem controlRounds_endingLine {reader : BufferedReader} {state : FTPState}
    (hreader : Delivers reader (some stream)) (hends : HasEndingLine strings env stream) :
    ∃ n, (controlRounds strings cwk env (startConnection env reader state) n).running =
      false := by
  obtain ⟨n, line, command, hline, hcommand, hends⟩ := hends
  cases hrunning : (controlRounds strings cwk env (startConnection env reader state) n).running with
  | false => exact ⟨n, hrunning⟩
  | true =>
    obtain ⟨hlt, rfl⟩ := List.getElem?_eq_some_iff.1 hline
    obtain ⟨-, left, hleft, hlines⟩ := controlRounds_lines hreader hrunning
    rw [List.drop_eq_getElem_cons hlt] at hlines
    have hround := (round_line strings cwk env n hrunning hleft hlines).1
    rw [hcommand] at hround
    exact ⟨n + 1, controlRound_ends hrunning hround hends⟩

end Rounds

/-- The loop is left after finitely many rounds. -/
def LoopLeft (strings : CommandStrings) (cwk : Cwalk) (env : ControlEnv)
    (start : ControlConnection) : Prop :=
  ∃ n, (controlRounds strings cwk env start n).running = false

/-- The lines that are processed follow each other in the stream: none is processed twice or
out of order. -/
def LinesInOrder (strings : CommandStrings) (cwk : Cwalk) (env : ControlEnv)
    (start : ControlConnection) (stream : Bytes) : Prop :=
  ∀ n, (linesProcessed strings cwk env start n).flatMap (· ++ ftpCommandSeperators) <+: stream

theorem linesInOrder_of_delivers {env : ControlEnv} {start : ControlConnection} {stream : Bytes}
    (h : Delivers start.reader (some stream)) : LinesInOrder strings cwk env start stream := by
  intro n
  obtain ⟨rest, hrest⟩ := linesProcessed_start strings cwk env h n
  refine List.IsPrefix.trans ⟨rest.flatMap (· ++ ftpCommandSeperators), ?_⟩
    (ftpLines_start stream)
  rw [← List.flatMap_append, hrest]

/-- **When the loop is left**: exactly when a reply cannot be written or the client has sent a
TYPE that ends the session; the end of the stream does not end it. -/
theorem controlLoop_left_iff (strings : CommandStrings) (cwk : Cwalk) (env : ControlEnv)
    (state : FTPState) (stream : Bytes) (cut : Cut stream) :
    (LoopLeft strings cwk env (startConnection env (freshReader cut) state) ∧
      LinesInOrder strings cwk env (startConnection env (freshReader cut) state) stream) ↔
    (∃ n, env.replies n = false) ∨ HasEndingLine strings env stream := by
  have hreader := freshReader_delivers cut
  constructor
  · rintro ⟨⟨n, hleft⟩, -⟩
    by_contra hnone
    obtain ⟨hreplies, hlines⟩ := not_or.1 hnone
    have hall : ∀ i, env.replies i = true := fun i =>
      Bool.eq_true_of_not_eq_false fun hi => hreplies ⟨i, hi⟩
    rw [controlRounds_forever hreader hall hlines n] at hleft
    cases hleft
  · intro h
    refine ⟨?_, linesInOrder_of_delivers hreader⟩
    rcases h with ⟨n, hreply⟩ | hends
    · -- the reply is one of the first `n + 1` rounds
      refine ⟨n, Bool.eq_false_iff.2 ?_⟩
      intro hrunning
      obtain ⟨hcount, hwritten⟩ := controlRounds_sent hrunning
      rw [hwritten n hcount] at hreply
      cases hreply
    · exact controlRounds_endingLine hreader hends

/-- Every reply can be written, and there is always memory. -/
def writableEnv : ControlEnv := ⟨fun _ => true, fun _ => ⟨true, true, quietEnv⟩⟩

/-- A client that connects and closes its side at once. -/
def emptyCut : Cut [] := ⟨[], fun _ h => absurd h List.not_mem_nil, rfl⟩

/-- The loop of a client that is gone is never left while its replies can be written. -/
theorem controlLoop_goneClient :
    ¬ ∀ (strings : CommandStrings) (cwk : Cwalk) (env : ControlEnv) (state : FTPState)
      (stream : Bytes) (cut : Cut stream),
      LoopLeft strings cwk env (startConnection env (freshReader cut) state) ∧
        LinesInOrder strings cwk env (startConnection env (freshReader cut) state) stream := by
  intro h
  obtain ⟨⟨n, hleft⟩, -⟩ := h .plain .plain writableEnv (defaultState (ascii "/srv")) [] emptyCut
  have hnone : ¬ HasEndingLine .plain writableEnv [] := by
    rintro ⟨n, line, command, hline, -, -⟩
    rw [ftpLines_none rfl] at hline
    cases hline
  rw [controlRounds_forever (freshReader_delivers emptyCut) (fun _ => rfl) hnone n] at hleft
  cases hleft

end SimpleServer.Ftp
