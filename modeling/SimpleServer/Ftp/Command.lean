import SimpleServer.Ftp.Server
import SimpleServer.Utils.BufferedReader

/-!
# The command loop of a control connection (`ftp/command.c`, `ftp/server.c`)

`parseSingleFtpCommand` takes a line from the reader and looks its word up; it returns no
command for a line it does not know, and also when there is no line. `controlRound` is one
round of the loop in `ftp_control_socket_connection_handler`.

The functions of the tstr library are a parameter (`CommandStrings`). The replies of a
connection are numbered, the greeting is the first, and `replies` says which of them can be
written.
-/

namespace SimpleServer.Ftp

open Utils

/-- The functions on strings that the parser uses. -/
structure CommandStrings where
  /-- `tstr_split`, at the first delimiter. -/
  tstrSplit : Bytes → Bytes → Option (Bytes × Bytes)
  /-- The pieces that `tstr_split_next` delivers one after the other. -/
  tstrSplitPieces : Bytes → Bytes → List Bytes
  tstrViewToInt : Bytes → Option ℤ

/-- Strings of one byte delimiters and decimal numbers. -/
def CommandStrings.plain : CommandStrings where
  tstrSplit value delimiter :=
    if delimiter.headD 0 ∈ value then
      some (value.takeWhile (· ≠ delimiter.headD 0),
        (value.dropWhile (· ≠ delimiter.headD 0)).drop 1)
    else none
  tstrSplitPieces value delimiter := value.splitOn (delimiter.headD 0)
  tstrViewToInt value :=
    if value ≠ [] ∧ value.all (fun c => 0x30 ≤ c ∧ c ≤ 0x39) then
      some (value.foldl (fun (result : ℤ) c => result * 10 + (c.toNat - 0x30)) 0)
    else none

/-- `FTP_COMMAND_SEPERATORS`. -/
def ftpCommandSeperators : Bytes := [0x0D, 0x0A]

/-! ## The parser -/

def parseFtpCommandTypeInfo : Bytes → Option FtpCommandTypeInformation
  | [0x41] => some (.normal transmissionTypeAscii)
  | [0x45] => some (.normal transmissionTypeEbcdic)
  | [0x49] => some (.normal transmissionTypeImage)
  | _ => none

def parseU8Into (strings : CommandStrings) (input : Bytes) : Option UInt8 :=
  if input.length > 3 then none
  else
    match strings.tstrViewToInt input with
    | none => none
    | some result =>
      if result < 0 ∨ result > 0xFF then none else some (UInt8.ofNat result.toNat)

/-- Six numbers; the address is what `s_addr` holds on a little-endian machine. -/
def parseFtpCommandPortInfo (strings : CommandStrings) (arg : Bytes) : Option FTPConnectAddr :=
  match (strings.tstrSplitPieces arg (ascii ",")).mapM (parseU8Into strings) with
  | some [h1, h2, h3, h4, p1, p2] =>
    some
      { addr := UInt32.ofNat
          (h1.toNat * 2 ^ 24 + h2.toNat * 2 ^ 16 + h3.toNat * 2 ^ 8 + h4.toNat)
        -- `deserialize_u16_le_to_host`
        port := UInt16.ofNat (p1.toNat + p2.toNat * 2 ^ 8) }
  | _ => none

/-- The words that are a command without an argument. -/
def plainCommands : List (String × FTPCommand) :=
  [("CDUP", .cdup), ("QUIT", .other), ("REIN", .other), ("PASV", .pasv), ("STOU", .other),
    ("ABOR", .other), ("PWD", .pwd), ("LIST", .list none), ("NLST", .other), ("SYST", .syst),
    ("STAT", .other), ("HELP", .other), ("NOOP", .noop), ("FEAT", .feat)]

/-- A command whose argument is not looked at. -/
def notImplemented (_ : Bytes) : Option FTPCommand := some .other

/-- The words that are followed by an argument. -/
def argumentCommands (strings : CommandStrings) : List (String × (Bytes → Option FTPCommand)) :=
  [("USER", fun arg => some (.user arg)), ("PASS", fun arg => some (.pass arg)),
    ("ACCT", notImplemented), ("CWD", fun arg => some (.cwd arg)), ("SMNT", notImplemented),
    ("RETR", fun arg => some (.retr arg)), ("STOR", fun arg => some (.stor arg)),
    ("APPE", notImplemented), ("RNFR", notImplemented), ("RNTO", notImplemented),
    ("DELE", notImplemented), ("RMD", notImplemented), ("MKD", notImplemented),
    ("LIST", fun arg => some (.list (some arg))), ("NLST", notImplemented),
    ("SITE", notImplemented), ("STAT", notImplemented), ("HELP", notImplemented),
    ("AUTH", fun arg => some (.auth arg)), ("ADAT", notImplemented), ("MIC", notImplemented),
    ("CONF", notImplemented), ("ENC", notImplemented),
    ("TYPE", fun arg => (parseFtpCommandTypeInfo arg).map .type),
    ("PORT", fun arg => (parseFtpCommandPortInfo strings arg).map .port)]

/-- The command of a line; `allocated` says whether there is memory for it. -/
def parseCommandLine (strings : CommandStrings) (allocated : Bool) (data : Bytes) :
    Option FTPCommand :=
  if data.length < 3 then none
  else if ¬ allocated then none
  else
    match plainCommands.find? fun entry => eqIgnoreCase data (ascii entry.1) with
    | some (_, command) => some command
    | none =>
      match strings.tstrSplit data (ascii " ") with
      | none => none
      | some (commandStr, argumentStr) =>
        match (argumentCommands strings).find? fun entry =>
            eqIgnoreCase commandStr (ascii entry.1) with
        | some (_, make) => make argumentStr
        | none => none

def parseSingleFtpCommand (strings : CommandStrings) (allocated : Bool)
    (reader : BufferedReader) : BufferedReader × Option FTPCommand :=
  match bufferedReaderGetUntilDelimiter reader ftpCommandSeperators with
  | (reader, .ok data) => (reader, parseCommandLine strings allocated data)
  | (reader, _) => (reader, none)

/-! ## The loop -/

/-- What a round of the loop meets outside. -/
structure RoundEnv where
  /-- There is memory for the command. -/
  allocated : Bool
  /-- There is memory for the copy of the data behind the line. -/
  copied : Bool
  command : CommandEnv

/-- What a connection meets outside. -/
structure ControlEnv where
  /-- The `n`th reply can be written. -/
  replies : ℕ → Bool
  rounds : ℕ → RoundEnv

structure ControlConnection where
  reader : BufferedReader
  state : FTPState
  /-- How many replies were sent. -/
  sent : ℕ
  /-- The loop goes on. -/
  running : Bool

/-- What a command of the `n`th round meets. -/
def ControlEnv.commandEnv (env : ControlEnv) (n sent : ℕ) : CommandEnv :=
  { (env.rounds n).command with sendResponse := fun i => env.replies (sent + i) }

/-- How many replies a command has sent. -/
def Handled.replyCount (handled : Handled) : ℕ := handled.actions.countP FtpAction.isReply

/-- The connection when its loop begins, after the greeting. -/
def startConnection (env : ControlEnv) (reader : BufferedReader) (state : FTPState) :
    ControlConnection :=
  ⟨reader, state, 1, env.replies 0⟩

/-- One round of the loop. -/
def controlRound (strings : CommandStrings) (cwk : Cwalk) (env : ControlEnv)
    (connection : ControlConnection) (n : ℕ) : ControlConnection :=
  if ¬ connection.running then connection
  else
    let parsed := parseSingleFtpCommand strings (env.rounds n).allocated connection.reader
    let reader := bufferedReaderInvalidateOldData parsed.1 (env.rounds n).copied
    match parsed.2 with
    | none =>
      -- "Invalid Command Sequence"
      { connection with
        reader := reader
        sent := connection.sent + 1
        running := env.replies connection.sent }
    | some command =>
      let handled := ftpProcessCommand cwk (env.commandEnv n connection.sent) connection.state
        command
      ⟨reader, handled.state, connection.sent + handled.replyCount, handled.alive⟩

/-- The connection after `n` rounds. -/
def controlRounds (strings : CommandStrings) (cwk : Cwalk) (env : ControlEnv)
    (start : ControlConnection) : ℕ → ControlConnection
  | 0 => start
  | n + 1 => controlRound strings cwk env (controlRounds strings cwk env start n) n

/-- The line that a round processes, if it gets one. -/
def roundLine (connection : ControlConnection) : List Bytes :=
  if connection.running then
    match (bufferedReaderGetUntilDelimiter connection.reader ftpCommandSeperators).2 with
    | .ok line => [line]
    | _ => []
  else []

/-- The lines that the first `n` rounds process. -/
def linesProcessed (strings : CommandStrings) (cwk : Cwalk) (env : ControlEnv)
    (start : ControlConnection) (n : ℕ) : List Bytes :=
  (List.range n).flatMap fun i => roundLine (controlRounds strings cwk env start i)

end SimpleServer.Ftp
