import SimpleServer.Http.Routes

/-!
# Content codings (`parser.c`, `protocol.c`)

`get_compression_settings` reads the `accept-encoding` header, and `get_send_settings` chooses the
coding of the answer. A weight is a `float`, and every operation on it is rounded by itself. The
functions of the tstr library and `TVEC_SORT` are a parameter, and there is always memory for an
entry.
-/

namespace SimpleServer.Http

open Hpack

variable {Uri : Type}

inductive CompressionValue where
  | noEncoding
  | allEncodings
  | normalEncoding (type : CompressionType)
deriving Repr, DecidableEq

structure CompressionEntry where
  value : CompressionValue
  weight : Float32
deriving DecidableEq

/-! ## Reading the header -/

def parseCompressionType (compressionName : Bytes) : Option CompressionType :=
  if compressionName = ascii "gzip" ∨ compressionName = ascii "x-gzip" then some .gzip
  else if compressionName = ascii "deflate" then some .deflate
  else if compressionName = ascii "br" then some .br
  else if compressionName = ascii "zstd" then some .zstd
  else if compressionName = ascii "compress" ∨ compressionName = ascii "x-compress" then
    some .compress
  else none

def parseCompressionValue (compressionName : Bytes) : Option CompressionValue :=
  if compressionName = ascii "*" then some .allEncodings
  else if compressionName = ascii "identity" then some .noEncoding
  else (parseCompressionType compressionName).map .normalEncoding

/-- What the loop of `parse_compression_quality_float_tstr` works on. -/
structure QualityState where
  result : Float32
  hadDot : Bool
  frac : Float32

def qualityStep (state : QualityState) (val : UInt8) : Option QualityState :=
  if val = 0x2E then
    if state.hadDot then none else some { state with hadDot := true }
  else if val < 0x30 ∨ val > 0x39 then none
  else
    let valf := (val - 0x30).toFloat32
    if state.hadDot then
      some { state with result := state.result + valf / state.frac, frac := state.frac * 10 }
    else some { state with result := state.result * 10 + valf }

def parseCompressionQualityFloatTstr (view : Bytes) : Option Float32 :=
  if view.length = 0 then none
  else (view.foldlM qualityStep ⟨0, false, 10⟩).map QualityState.result

def parseCompressionQuality (p : HeadParser Uri) (compressionWeightInput : Bytes) :
    Option Float32 :=
  match p.tstrViewLstrip compressionWeightInput with
  | q :: 0x3D :: floatValue =>
    if q ≠ 0x71 ∧ q ≠ 0x51 then none else parseCompressionQualityFloatTstr floatValue
  | _ => none

/-- One round of the loop of `get_compression_settings`. -/
def compressionEntry (p : HeadParser Uri) (part : Bytes) : Option CompressionEntry :=
  let part := p.tstrViewLstrip part
  let (compressionName, compressionWeight) := (p.tstrSplit part (ascii ";")).getD (part, [])
  let weight :=
    if compressionWeight.length ≠ 0 then (parseCompressionQuality p compressionWeight).getD 1
    else 1
  (parseCompressionValue (p.tstrViewLstrip compressionName)).map fun value => ⟨value, weight⟩

/-- The entries of the first `accept-encoding` header. -/
def getCompressionSettings (p : HeadParser Uri) (headerFields : List HttpHeaderField) :
    List CompressionEntry :=
  match findHeaderByKey headerFields (ascii "accept-encoding") with
  | none => []
  | some header =>
    if header.value.length = 0 then []
    else (p.tstrSplitPieces header.value (ascii ",")).filterMap (compressionEntry p)

/-! ## Choosing a coding -/

/-- `is_compression_supported`, for what the build supports. -/
def isCompressionSupported (support : CompressionType → Bool) : CompressionType → Bool
  | .none => true
  | format => support format

def supportedCompressions : List CompressionType := [.br, .zstd, .gzip, .deflate, .compress]

def getBestCompressionThatIsSupported (support : CompressionType → Bool) : CompressionType :=
  (supportedCompressions.find? (isCompressionSupported support)).getD .none

/-- A `float` as an `int`, without what is behind the dot. C does not define what becomes of one
that does not fit; here it is the least `int` for either sign, so that comparisons contradict each
other. -/
def truncate (x : Float32) : ℤ :=
  let least : ℤ := -2 ^ 31
  let whole := x.toModel.unpack.toInt least least
  if x.isNaN ∨ whole < least ∨ 2 ^ 31 ≤ whole then least else whole

def compareFunctionEntries (entry1 entry2 : CompressionEntry) : ℤ :=
  if entry1.weight != entry2.weight then truncate ((entry1.weight - entry2.weight) * 10000) else 0

/-- The loop of `get_send_settings`. -/
def selectCompression (support : CompressionType → Bool) : List CompressionEntry → CompressionType
  | [] => .none
  | entry :: entries =>
    match entry.value with
    | .noEncoding => .none
    | .allEncodings => getBestCompressionThatIsSupported support
    | .normalEncoding compression =>
      if isCompressionSupported support compression then compression
      else selectCompression support entries

/-- `get_send_settings`, with `TVEC_SORT` as `sort`. -/
def sendSettingsOf (sort : List CompressionEntry → List CompressionEntry)
    (support : CompressionType → Bool) (entries : List CompressionEntry)
    (protocolData : HttpProtocolData) : SendSettings :=
  if entries.length = 0 then ⟨.none, protocolData⟩
  else ⟨selectCompression support (sort entries), protocolData⟩

end SimpleServer.Http
