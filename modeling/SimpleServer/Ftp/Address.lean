import SimpleServer.Ftp.Command
import SimpleServer.Lib.ByteOrder
import SimpleServer.Lib.Decimal

/-!
# Addresses of data connections (`ftp/command.c`, `ftp/state.c`, `generic/ip.c`)

The argument of `PORT` and the answer to `PASV`, on a machine of either byte order. `s_addr` is in
network order: its memory is the four numbers of the address.

* `parseFtpCommandPortInfo_little`: `PORT` in the commands is the one of a little-endian machine.
-/

namespace SimpleServer.Ftp

open Lib

variable (host : ByteOrder)

/-! ## Serialisation -/

def deserializeU16LeToHost (bytes : Bytes) : ℕ := host.toLittle 2 (host.load (bytes.take 2))

def deserializeU32LeToNo (bytes : Bytes) : ℕ :=
  host.toNetwork 4 (host.toLittle 4 (host.load (bytes.take 4)))

def serializeU16NoToHost (value : ℕ) : Bytes := host.store 2 (host.toNetwork 2 value)

def serializeU32NoToHost (value : ℕ) : Bytes := host.store 4 (host.toNetwork 4 value)

def getIpv4AddressFromHostBytes (bytes : Bytes) : UInt32 :=
  UInt32.ofNat (deserializeU32LeToNo host bytes)

def getRawBytesAsHostBytesFromIpv4Address (address : UInt32) : Bytes :=
  serializeU32NoToHost host address.toNat

/-! ## Reading and printing -/

/-- `parse_ftp_command_port_info` on a machine of either byte order. -/
def parseFtpCommandPortInfoOn (strings : CommandStrings) (arg : Bytes) : Option FTPConnectAddr :=
  match (strings.tstrSplitPieces arg (ascii ",")).mapM (parseU8Into strings) with
  | some [h1, h2, h3, h4, p1, p2] =>
    some
      { addr := getIpv4AddressFromHostBytes host [h1, h2, h3, h4, p1, p2]
        port := UInt16.ofNat (deserializeU16LeToHost host [p1, p2]) }
  | _ => none

/-- The port of a socket address is in network order. -/
def getPortInfoFromSockaddr (sinAddr : UInt32) (sinPort : UInt16) : FTPConnectAddr :=
  ⟨sinAddr, UInt16.ofNat (host.toNetwork 2 sinPort.toNat)⟩

def makeAddressPortDesc (addr : FTPConnectAddr) : Bytes :=
  let port := serializeU16NoToHost host addr.port.toNat
  let rawIpv4Bytes := getRawBytesAsHostBytesFromIpv4Address host addr.addr
  ascii "(" ++
    [0x2C].intercalate ((rawIpv4Bytes ++ port).map fun byte => decimalText byte.toNat) ++ ascii ")"

/-- `PORT` in the commands is the one of a little-endian machine. -/
theorem parseFtpCommandPortInfo_little (strings : CommandStrings) (arg : Bytes) :
    parseFtpCommandPortInfo strings arg = parseFtpCommandPortInfoOn .little strings arg := by
  unfold parseFtpCommandPortInfo parseFtpCommandPortInfoOn
  cases (strings.tstrSplitPieces arg (ascii ",")).mapM (parseU8Into strings) with
  | none => rfl
  | some numbers =>
    match numbers with
    | [h1, h2, h3, h4, p1, p2] =>
      have haddr : ofBE [h1, h2, h3, h4] =
          h1.toNat * 2 ^ 24 + h2.toNat * 2 ^ 16 + h3.toNat * 2 ^ 8 + h4.toNat := by
        simp only [ofBE, List.foldl_cons, List.foldl_nil]
        ring
      have hport : ofBE [p2, p1] = p1.toNat + p2.toNat * 2 ^ 8 := by
        simp only [ofBE, List.foldl_cons, List.foldl_nil]
        ring
      have hswap : (toBE 4 (ofBE [h4, h3, h2, h1])).reverse = [h1, h2, h3, h4] :=
        congrArg List.reverse (toBE_ofBE [h4, h3, h2, h1])
      simp only [getIpv4AddressFromHostBytes, deserializeU32LeToNo, deserializeU16LeToHost,
        ByteOrder.toNetwork, ByteOrder.toLittle, ByteOrder.load, ByteOrder.swapBytes]
      rw [← haddr, ← hport, ← hswap]
      rfl
    | [] | [_] | [_, _] | [_, _, _] | [_, _, _, _] | [_, _, _, _, _] => rfl
    | _ :: _ :: _ :: _ :: _ :: _ :: _ :: _ => rfl

end SimpleServer.Ftp
