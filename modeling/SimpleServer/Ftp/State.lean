import SimpleServer.Utils.Path

/-!
# The state of an FTP session (`ftp/account.h`, `ftp/state.c`)
-/

namespace SimpleServer.Ftp

/-- `AccountPermissions`, a set of two flags. -/
inductive AccountPermissions
  | none
  | read
  | write
  | readWrite
deriving Repr, DecidableEq

/-- The flag `AccountPermissionsWrite` is set. -/
def AccountPermissions.hasWrite : AccountPermissions → Bool
  | .write => true
  | .readWrite => true
  | _ => false

inductive AccountInfo
  | empty
  | onlyUser (username : Bytes)
  | ok (permissions : AccountPermissions) (username : Bytes)
deriving Repr, DecidableEq

def AccountInfo.isOk : AccountInfo → Bool
  | .ok _ _ => true
  | _ => false

inductive UserValidity
  | noSuchUser
  | wrongPassword
  | ok
  | internalError
deriving Repr, DecidableEq

/-- An IPv4 address and a port. -/
structure FTPConnectAddr where
  addr : UInt32
  port : UInt16
deriving Repr, DecidableEq

/-- `FTPDataSettings`: the mode, with the address it was set with. -/
inductive FTPDataSettings
  | none
  | passive (addr : FTPConnectAddr)
  | active (addr : FTPConnectAddr)
deriving Repr, DecidableEq

inductive FtpMode
  | stream
  | block
  | compressed
deriving Repr, DecidableEq

inductive FtpStructure
  | file
  | record
  | page
deriving Repr, DecidableEq

inductive SendMode
  | unsupported
  | streamBinaryFile
  | streamBinaryRecord
deriving Repr, DecidableEq

/-- `FtpTransmissionTypeAscii`. -/
def transmissionTypeAscii : ℕ := 0x1

/-- `FtpTransmissionTypeEbcdic`. -/
def transmissionTypeEbcdic : ℕ := 0x2

/-- `FtpTransmissionTypeImage`. -/
def transmissionTypeImage : ℕ := 0x4

/-- `FtpTransmissionTypeFlagNp`. -/
def transmissionTypeFlagNp : ℕ := 0x10

/-- `FtpTransmissionTypeMaskBase`. -/
def transmissionTypeMaskBase : ℕ := 0x0F

structure FTPState where
  globalFolder : Bytes
  account : AccountInfo
  currentWorkingDirectory : Bytes
  currentType : ℕ
  mode : FtpMode
  structure' : FtpStructure
  dataSettings : FTPDataSettings
deriving Repr, DecidableEq

/-- `alloc_default_state`, for a folder that does not end in a separator. -/
def defaultState (globalFolder : Bytes) : FTPState :=
  { globalFolder := globalFolder
    account := .empty
    currentWorkingDirectory := globalFolder
    currentType := transmissionTypeAscii ||| transmissionTypeFlagNp
    mode := .stream
    structure' := .file
    dataSettings := .none }

def getCurrentSendMode (state : FTPState) : SendMode :=
  if state.currentType ≠ transmissionTypeImage then .unsupported
  else if state.mode ≠ .stream then .unsupported
  else
    match state.structure' with
    | .file => .streamBinaryFile
    | .record => .streamBinaryRecord
    | .page => .unsupported

end SimpleServer.Ftp
