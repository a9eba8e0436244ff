import GrpcCore.Lib.SizedFifo
import GrpcCore.Lib.Ring
import GrpcCore.Lib.Run
import GrpcCore.Lib.Buffer
import GrpcCore.Lib.Word
import GrpcCore.Lib.Incremental
import GrpcCore.Lib.PackedPair
import GrpcCore.Lib.LittleEndian
import GrpcCore.Lib.Utf8
import GrpcCore.Lib.Numeric
import GrpcCore.Lib.Bits
import GrpcCore.Lib.PrefixTree
import GrpcCore.Lib.HeapOrder
import GrpcCore.Hpack.Basic
import GrpcCore.Hpack.ParserTable
import GrpcCore.Hpack.EncoderTable
import GrpcCore.Hpack.TableSync
import GrpcCore.Hpack.DecodeHuff
import GrpcCore.Hpack.Strings
import GrpcCore.Hpack.Parser
import GrpcCore.Hpack.ParserCuts
import GrpcCore.Hpack.BlockLimits
import GrpcCore.Hpack.Varint
import GrpcCore.Hpack.VarintCodec
import GrpcCore.Hpack.BinEncoder
import GrpcCore.Hpack.Base64
import GrpcCore.Hpack.HuffmanTables
import GrpcCore.Hpack.HuffRoundTrip
import GrpcCore.Chttp2.MessageFraming
import GrpcCore.Chttp2.Transport
import GrpcCore.Chttp2.Deframer
import GrpcCore.Chttp2.FrameParsers
import GrpcCore.Chttp2.DeframerCuts
import GrpcCore.Chttp2.HeaderBlocks
import GrpcCore.Chttp2.Goaway
import GrpcCore.Chttp2.StreamMap
import GrpcCore.Chttp2.Settings
import GrpcCore.Chttp2.SettingsAgreement
import GrpcCore.Chttp2.FrameWriters
import GrpcCore.Chttp2.HeaderFraming
import GrpcCore.Chttp2.StreamStart
import GrpcCore.Chttp2.FlowControl
import GrpcCore.Chttp2.FlowControlPair
import GrpcCore.Chttp2.FlowControlTotals
import GrpcCore.Chttp2.DataFrames
import GrpcCore.ClientChannel.RetryThrottle
import GrpcCore.Lb.RlsCache
import GrpcCore.Lb.WeightedPicker
import GrpcCore.Lb.RingHash
import GrpcCore.Lb.RingHashList
import GrpcCore.Lb.StaticStride
import GrpcCore.Gprpp.WorkSerializer
import GrpcCore.Gprpp.Time
import GrpcCore.Gpr.Timespec
import GrpcCore.Promise.Activity
import GrpcCore.Promise.Mpsc
import GrpcCore.Promise.Pipe
import GrpcCore.DataStructures.Avl
import GrpcCore.DataStructures.AvlCompare
import GrpcCore.Alts.Crypter
import GrpcCore.Alts.SealedChannel
import GrpcCore.Slice.SliceBuffer
import GrpcCore.Slice.SliceBufferBytes
import GrpcCore.Slice.MoveFirst
import GrpcCore.EventEngine.TimerHeap
import GrpcCore.Json.Reader
import GrpcCore.Json.Grammar
import GrpcCore.Json.Number
import GrpcCore.Json.Steps
import GrpcCore.Json.Transition
import GrpcCore.Json.Invariant
import GrpcCore.Json.Demand
import GrpcCore.Json.Sound
import GrpcCore.Json.Tokens
import GrpcCore.Json.Complete
import GrpcCore.Json.Ecma404
import GrpcCore.Json.Writer
import GrpcCore.Json.RoundTrip
import GrpcCore.Json.Sanitise
import GrpcCore.Chttp2.SendWindows
import GrpcCore.Chttp2.ControlFrames
import GrpcCore.Transport.Timeout
import GrpcCore.Slice.B64
import GrpcCore.Tsi.SslSessionCache
import GrpcCore.ChannelIdle.IdleFilterState
import GrpcCore.Xds.Routing
import GrpcCore.Gprpp.WorkSerializerOrder
import GrpcCore.Lb.OutlierDetection
import GrpcCore.Lb.OutlierSubchannels
import GrpcCore.Lb.RlsPicker
import GrpcCore.Uri.Parser
import GrpcCore.Chttp2.StreamLists
import GrpcCore.Channel.ChannelTrace
import GrpcCore.Security.IpMatcher
import GrpcCore.Gprpp.ChunkedVector
