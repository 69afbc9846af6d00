import SimpleServer.Lib.Bits
import SimpleServer.Lib.CodeTree
import SimpleServer.Hpack.Tables
import SimpleServer.Hpack.Huffman
import SimpleServer.Hpack.Decode
import SimpleServer.Hpack.Encode
import SimpleServer.Http2.Frame
import SimpleServer.Http2.Process
import SimpleServer.Lib.Run
import SimpleServer.Proof.StreamClosed
import SimpleServer.Http2.Request
import SimpleServer.Proof.Priority
import SimpleServer.Proof.HeaderOrder
import SimpleServer.Proof.SettingsDirection
import SimpleServer.Utils.BufferedReader
import SimpleServer.Proof.BufferRoom
import SimpleServer.Ftp.FileOps
import SimpleServer.Ftp.Server
import SimpleServer.Proof.ServedFolder
import SimpleServer.Http.Folder
import SimpleServer.Proof.WebRoot
import SimpleServer.Ftp.Data
import SimpleServer.Ftp.Threads
import SimpleServer.Proof.AccessControl
import SimpleServer.Proof.PassivePorts
import SimpleServer.Proof.HuffmanRoundTrip
import SimpleServer.Proof.HpackLiteral
import SimpleServer.Proof.HpackField
import SimpleServer.Proof.HpackRoundTrip
import SimpleServer.Lib.Ring
import SimpleServer.Lib.BigEndian
import SimpleServer.Lib.Reading
import SimpleServer.Lib.Fragments
import SimpleServer.Lib.Framing
import SimpleServer.Utils.Serialize
import SimpleServer.Utils.ReaderSpec
import SimpleServer.Utils.LineSpec
import SimpleServer.Ws.Frame
import SimpleServer.Proof.WsCodec
import SimpleServer.Proof.TableAccounting
import SimpleServer.Proof.TableRefinement
import SimpleServer.Proof.HuffmanExact
import SimpleServer.Proof.IntegerExact
import SimpleServer.Lib.Occurrence
import SimpleServer.Lib.Utf8
import SimpleServer.Proof.DelimiterSearch
import SimpleServer.Proof.Padding
import SimpleServer.Http.Uri
import SimpleServer.Proof.PseudoHeaders
import SimpleServer.Hpack.FastCompare
import SimpleServer.Proof.StringTree
import SimpleServer.Proof.FastCompare
import SimpleServer.Proof.StaticLookup
import SimpleServer.Http2.Codec
import SimpleServer.Http2.Send
import SimpleServer.Proof.FrameBoundary
import SimpleServer.Proof.FrameCodec
import SimpleServer.Proof.SettingsRange
import SimpleServer.Proof.ResponseEnd
import SimpleServer.Proof.Reassembly
import SimpleServer.Hpack.Machine
import SimpleServer.Proof.DecodeBounds
import SimpleServer.Http.Parser
import SimpleServer.Http.Stream
import SimpleServer.Http.Send
import SimpleServer.Http.Server
import SimpleServer.Proof.Segmentation
import SimpleServer.Proof.ReaderCuts
import SimpleServer.Proof.FramesOnly
import SimpleServer.Lib.Tally
import SimpleServer.Utils.ThreadPool
import SimpleServer.Proof.PoolMoves
import SimpleServer.Proof.JobsOnce
import SimpleServer.Proof.PoolRuns
import SimpleServer.Ftp.Command
import SimpleServer.Proof.ControlLoop
import SimpleServer.Generic.Authentication
import SimpleServer.Http.Routes
import SimpleServer.Proof.ProtectedRoutes
import SimpleServer.Http.Answer
import SimpleServer.Proof.HeadMirror
import SimpleServer.Ftp.Calls
import SimpleServer.Proof.CleanUp
import SimpleServer.Proof.ControllerInv
import SimpleServer.Ftp.Transfer
import SimpleServer.Proof.NoLeaks
import SimpleServer.Ws.Extension
import SimpleServer.Ws.Send
import SimpleServer.Ws.Listener
import SimpleServer.Proof.WsFragments
import SimpleServer.Proof.WsRounds
import SimpleServer.Proof.WsMessages
import SimpleServer.Json.Value
import SimpleServer.Json.Grammar
import SimpleServer.Json.Parse
import SimpleServer.Json.Print
import SimpleServer.Proof.JsonNumber
import SimpleServer.Proof.JsonString
import SimpleServer.Proof.JsonSteps
import SimpleServer.Proof.JsonSound
import SimpleServer.Proof.JsonComplete
import SimpleServer.Proof.JsonGrammar
import SimpleServer.Proof.JsonEscape
import SimpleServer.Proof.JsonPrint
import SimpleServer.Proof.JsonRoundTrip
import SimpleServer.Lib.Decimal
import SimpleServer.Utils.NumberParsing
import SimpleServer.Proof.NumbersExact
import SimpleServer.Http.RequestUri
import SimpleServer.Proof.UriBoundaries
import SimpleServer.Proof.QueryParameters
import SimpleServer.Proof.PathPrinting
import SimpleServer.Proof.UriPrinting
import SimpleServer.Lib.Base64
import SimpleServer.Generic.Hash
import SimpleServer.Proof.Base64RoundTrip
import SimpleServer.Lib.ByteOrder
import SimpleServer.Ftp.Address
import SimpleServer.Proof.FtpAddresses
import SimpleServer.Lib.StableSort
import SimpleServer.Http.ParserStrings
import SimpleServer.Http.ContentCoding
import SimpleServer.Proof.CodingWeights
import SimpleServer.Proof.ContentCodings
import SimpleServer.Proof.HeaderKinds
import SimpleServer.Proof.BodyFraming
import SimpleServer.Lib.Buffer
import SimpleServer.Proof.PathBuilding
import SimpleServer.Proof.SamePath
import SimpleServer.Proof.FolderListing
import SimpleServer.Proof.RouteSpelling
import SimpleServer.Proof.GroupRoles
import SimpleServer.Ws.Handshake
import SimpleServer.Proof.Negotiation
import SimpleServer.Proof.IllegalFrames
import SimpleServer.Ftp.DirName
import SimpleServer.Proof.PrintedDirectory
import SimpleServer.Generic.Send
import SimpleServer.Ftp.SendData
import SimpleServer.Ftp.Files
import SimpleServer.Proof.TransfersExact
import SimpleServer.Ftp.Process
import SimpleServer.Proof.OneReply
import SimpleServer.Http.Head
import SimpleServer.Proof.HeadParsing
import SimpleServer.Proof.CompareArrays
import SimpleServer.Proof.StringLookup
import SimpleServer.Lib.Loop
import SimpleServer.Lib.StreamCodec
import SimpleServer.Http.Compression
import SimpleServer.Proof.ZlibStreams
import SimpleServer.Proof.StreamsWhole
import SimpleServer.Lib.BlockHash
import SimpleServer.Lib.Sha1
import SimpleServer.Generic.Sha1
import SimpleServer.Proof.Sha1Rounds
import SimpleServer.Proof.Sha1Stream
import SimpleServer.Proof.Sha1Digest
import SimpleServer.Generic.B64
import SimpleServer.Proof.B64Buffer
import SimpleServer.Proof.B64Codec
import SimpleServer.Ws.AcceptKey
import SimpleServer.Proof.AcceptKey
import SimpleServer.Lib.LinkedList
import SimpleServer.Ws.ThreadManager
import SimpleServer.Proof.ConnectionList
import SimpleServer.Proof.ConnectionLock
import SimpleServer.Http2.Client
import SimpleServer.Proof.QuietFrames
import SimpleServer.Proof.ResponseDelivery
import SimpleServer.Ws.Handler
import SimpleServer.Proof.WsTraffic
import SimpleServer.Proof.EchoDelivery
