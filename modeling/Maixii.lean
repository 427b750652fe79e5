import Maixii.App.Mailbox
import Maixii.AudioLib.ADecoder
import Maixii.AudioLib.AEncoder
import Maixii.AudioLib.AudioPipeline
import Maixii.AudioLib.PcmLayout
import Maixii.AudioLib.PcmPlayback
import Maixii.Avi.AviAgreement
import Maixii.Avi.AviClose
import Maixii.Avi.AviContainer
import Maixii.Avi.AviCounts
import Maixii.Avi.AviDef
import Maixii.Avi.AviFollows
import Maixii.Avi.AviHeaders
import Maixii.Avi.AviIndexReader
import Maixii.Avi.AviIndexes
import Maixii.Avi.AviKept
import Maixii.Avi.AviLayout
import Maixii.Avi.AviLifecycle
import Maixii.Avi.AviObject
import Maixii.Avi.AviProtected
import Maixii.Avi.AviReader
import Maixii.Avi.AviRecording
import Maixii.Avi.AviReuse
import Maixii.Avi.AviStdIndex
import Maixii.Avi.AviSuperIndex
import Maixii.Avi.AviWriter
import Maixii.Avi.LifecycleRuns
import Maixii.Avi.ReaderBounds
import Maixii.Avi.ReaderProgress
import Maixii.Avi.ReaderQueries
import Maixii.FsWriter.CacheInv
import Maixii.FsWriter.CacheRuns
import Maixii.FsWriter.CacheTurns
import Maixii.FsWriter.FsCache
import Maixii.FsWriter.FsSimpleCache
import Maixii.Lib.Boxes
import Maixii.Lib.ByteRing
import Maixii.Lib.Bytes
import Maixii.Lib.Crc
import Maixii.Lib.Elements
import Maixii.Lib.InFile
import Maixii.Lib.Ledger
import Maixii.Lib.Lines
import Maixii.Lib.Machine
import Maixii.Lib.Movie
import Maixii.Lib.Mutex
import Maixii.Lib.Numbered
import Maixii.Lib.OutFile
import Maixii.Lib.OutStream
import Maixii.Lib.Pieces
import Maixii.Lib.Regions
import Maixii.Lib.Riff
import Maixii.Lib.Ring
import Maixii.Lib.Run
import Maixii.Lib.Runs
import Maixii.Lib.Scan
import Maixii.Lib.ScanText
import Maixii.Lib.Spill
import Maixii.Lib.Table
import Maixii.Lib.Units
import Maixii.Lib.Zones
import Maixii.Mp4.Avc
import Maixii.Mp4.Chunks
import Maixii.Mp4.MovAtoms
import Maixii.Mp4.MovBoxes
import Maixii.Mp4.MovCaches
import Maixii.Mp4.MovContext
import Maixii.Mp4.MovFile
import Maixii.Mp4.MovPacket
import Maixii.Mp4.MovPlayed
import Maixii.Mp4.MovRecording
import Maixii.Mp4.MovRings
import Maixii.Mp4.MovSteps
import Maixii.Mp4.MovTables
import Maixii.Mp4.NalUnits
import Maixii.Mp4.SampleTables
import Maixii.Mp4.TrackTables
import Maixii.Muxer.Adts
import Maixii.Muxer.Mpeg2tsMuxer
import Maixii.Muxer.PesBuffer
import Maixii.Muxer.PesRoundTrip
import Maixii.Muxer.TsCache
import Maixii.Muxer.TsContinuity
import Maixii.Muxer.TsDemux
import Maixii.Muxer.TsPackets
import Maixii.Muxer.TsPlayback
import Maixii.Muxer.TsSections
import Maixii.Muxer.TsTables
import Maixii.Net.BufferReader
import Maixii.Net.BufferWriter
import Maixii.Net.ConnectionRuns
import Maixii.Net.ConnectionTable
import Maixii.Net.MemoryManager
import Maixii.Net.MemoryRuns
import Maixii.Net.ReadQueue
import Maixii.Net.RingBuffer
import Maixii.Net.RingQueue
import Maixii.Net.SendQueue
import Maixii.Net.StaleEntries
import Maixii.Net.TaskScheduler
import Maixii.Net.TcpConnection
import Maixii.Net.Timer
import Maixii.Net.TimerFiring
import Maixii.Stabilization.RingBuffer
import Maixii.Stabilization.RingRuns
import Maixii.Stabilization.RingWrap
import Maixii.TextEnc.TextEncApi
import Maixii.TextEnc.TextQueue
import Maixii.Xop.Answered
import Maixii.Xop.AuthGate
import Maixii.Xop.ChannelTransport
import Maixii.Xop.Clients
import Maixii.Xop.Descriptors
import Maixii.Xop.Framing
import Maixii.Xop.H264Parser
import Maixii.Xop.H264Source
import Maixii.Xop.H265Source
import Maixii.Xop.Handshake
import Maixii.Xop.Interleaved
import Maixii.Xop.KeyFrame
import Maixii.Xop.Lifetime
import Maixii.Xop.Losses
import Maixii.Xop.MediaFlow
import Maixii.Xop.Multicast
import Maixii.Xop.Packetizer
import Maixii.Xop.ParserBounds
import Maixii.Xop.Playing
import Maixii.Xop.Registered
import Maixii.Xop.Registry
import Maixii.Xop.RoundTrip
import Maixii.Xop.RtpConnection
import Maixii.Xop.RtspConnection
import Maixii.Xop.RtspMessage
import Maixii.Xop.RtspPusher
import Maixii.Xop.RtspReader
import Maixii.Xop.RtspServer
import Maixii.Xop.RtspSteps
import Maixii.Xop.RtspText
import Maixii.Xop.RtspUrl
import Maixii.Xop.Sdp
import Maixii.Xop.SdpRuns
import Maixii.Xop.VP8Source
