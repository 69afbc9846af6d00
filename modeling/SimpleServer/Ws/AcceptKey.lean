import SimpleServer.Generic.B64
import SimpleServer.Generic.Sha1
import SimpleServer.Ws.Handshake

/-!
# The accept key (`ws/ws.c`)

`generate_key_answer` on top of the hash functions of a build without OpenSSL.
-/

namespace SimpleServer.Ws

open Lib Hpack Http

variable {Uri : Type}

/-- The memory that is not initialised before use: the buffer of the hash, and the groups of the
encoder and the decoder. -/
structure UninitMemory where
  sha1 : Vector UInt8 64
  encode : Fin 3 → UInt8
  decode : Fin 4 → UInt8

def keyAcceptConstant : Bytes := ascii "258EAFA5-E914-47DA-95CA-C5AB0DC85B11"

/-- `generate_key_answer`; `%s` prints a key up to its first zero byte. -/
def generateKeyAnswer (order : ByteOrder) (uninit : UninitMemory) (secKey : Bytes) :
    Option Bytes := do
  let keyToHashBuffer := (secKey.takeWhile fun c => c ≠ 0) ++ keyAcceptConstant
  let sha1Hash ← Generic.getSha1FromString order uninit.sha1.toList keyToHashBuffer
  Generic.B64.base64EncodeBuffer uninit.encode sha1Hash

/-- The parser with the base64 decoder of a build without OpenSSL. -/
def withB64 (p : HeadParser Uri) (uninit : UninitMemory) : HeadParser Uri :=
  { p with base64DecodeBuffer := Generic.B64.base64DecodeBuffer uninit.decode }

end SimpleServer.Ws
