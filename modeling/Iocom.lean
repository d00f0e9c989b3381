import Iocom.Lib.TransitionSystem
import Iocom.Lib.Segment
import Iocom.Lib.OrderedChannel
import Iocom.Lib.EchoExchange
import Iocom.FrameCompression
import Iocom.Connection
import Iocom.Frame
import Iocom.MemoryBlock
import Iocom.SourceBuffer
import Iocom.TargetBuffer
import Iocom.DataFrame
import Iocom.MemoryBlockAccess
import Iocom.ChangeMarking
import Iocom.SnapshotTransfer
import Iocom.SnapshotReplication
import Iocom.BidirectionalConvergence
import Iocom.TargetBufferBounds
import Iocom.Root
import Iocom.TransferBufferSizes
import Iocom.FrameCodec
import Iocom.BlockIdentifiers
import Iocom.ReadFrame
import Iocom.FrameReassembly
import Iocom.Lib.AcknowledgedWindow
import Iocom.FlowControl
import Iocom.FlowSteps
import Iocom.FlowCounters
import Iocom.FlowWindow
import Iocom.FlowProgress
import Iocom.PackedJson
import Iocom.AllowedNetworks
import Iocom.Accounts
import Iocom.AccountDecisions
import Iocom.Signal
import Iocom.SignalAccess
import Iocom.DirtyRange
import Iocom.Lib.Placement
import Iocom.SignalsDocument
import Iocom.SignalsToC
import Iocom.DynamicInfo
import Iocom.SignalsReading
import Iocom.SignalLayout
import Iocom.Lib.History
import Iocom.Lib.Ring
import Iocom.Streamer
import Iocom.StreamerFifo
import Iocom.StreamerTransfer
import Iocom.StreamerCompletion
import Iocom.StreamCounts
import Iocom.StreamChecksums
import Iocom.InitialContent
import Iocom.Lib.ListCursor
import Iocom.InfoSending
import Iocom.Announcements
import Iocom.NetworkIsolation
import Iocom.FrameRanges
import Iocom.TransferModes
import Iocom.DynamicBlocks
import Iocom.DynamicBlockRelease
import Iocom.DynamicBlockLifetime
import Iocom.CompressionRoundTrip
import Iocom.FrameHeader
import Iocom.SnapshotCompletion
import Iocom.FrameNumbers
import Iocom.Lib.MemoryReader
import Iocom.Lib.MessageLayout
import Iocom.SystemFrames
import Iocom.SystemFrameBounds
import Iocom.AutoSync
import Iocom.Handshake
import Iocom.HandshakeMessage
import Iocom.TrustCertificate
import Iocom.HandshakeCalls
import Iocom.HandshakeRuns
import Iocom.HandshakeProgress
import Iocom.HandshakeRoundTrip
import Iocom.Lib.Overwrite
import Iocom.Lib.FairRounds
import Iocom.Bricks
import Iocom.BrickTransfer
import Iocom.BrickRuns
import Iocom.Lib.Separated
import Iocom.Lighthouse
import Iocom.LighthouseText
import Iocom.LighthousePublish
import Iocom.LighthouseRoundTrip
import Iocom.Lib.RoundNumbers
import Iocom.AutoDeviceNr
import Iocom.ReservationTable
import Iocom.DeviceNumberRuns
import Iocom.Lib.Bisection
import Iocom.SignalRange
import Iocom.IoPath
import Iocom.DynamicNetworks
import Iocom.SignalConfinement
import Iocom.Lib.ReversedGroups
import Iocom.ReadWrite
import Iocom.Lib.LittleEndian
import Iocom.SignalValues
import Iocom.StringRoundTrip
import Iocom.SignalRoundTrip
import Iocom.ArrayRoundTrip
import Iocom.Lib.BitGroups
import Iocom.Gazerbeam
import Iocom.GazerbeamMessages
import Iocom.GazerbeamTransmission
import Iocom.Lib.RoundWalk
import Iocom.Switchbox
import Iocom.SwitchboxTurns
import Iocom.Lib.MemoryLedger
import Iocom.Lib.Registry
import Iocom.PoolObjects
import Iocom.PoolOwnership
import Iocom.MemoryPool
import Iocom.AllocationFailures
import Iocom.ListeningEndPoint
import Iocom.Lib.LockDepth
import Iocom.EventQueue
import Iocom.LockBalance
import Iocom.SwitchboxAuth
import Iocom.SwitchboxAuthExchange
import Iocom.Lib.TextWalk
import Iocom.LighthousePacket
import Iocom.LighthouseParsing
import Iocom.FlatBricks
import Iocom.FlatBrickTransfer
import Iocom.Lib.MessageParts
import Iocom.SystemMessages
import Iocom.SystemMessageRoundTrip
import Iocom.GazerbeamConfig
import Iocom.GazerbeamMinmax
import Iocom.Lib.PointerChain
import Iocom.FreeBlkMemory
import Iocom.FreeBlkLists
import Iocom.StaticPool
import Iocom.Lib.RingBuffer
import Iocom.SwitchboxRings
import Iocom.Lib.LinkedList
import Iocom.Lib.LoopFuel
import Iocom.LinkedObjects
import Iocom.LinkedTables
import Iocom.LinkedLifetime
import Iocom.LinkedRuns
import Iocom.SharedConnection
import Iocom.SharedReplication
import Iocom.SwitchboxShared
import Iocom.SwitchboxClientIds
import Iocom.Lib.KeyedChannel
import Iocom.SwitchboxLanes
import Iocom.SwitchboxPairs
import Iocom.SwitchboxServing
import Iocom.SwitchboxIsolation
import Iocom.SwitchboxDrops
import Iocom.ControlStream
import Iocom.ControlStreamPhases
import Iocom.ControlStreamSending
import Iocom.ControlStreamReceiving
import Iocom.Lib.RecencyTable
import Iocom.LighthouseTable
import Iocom.Lib.HashChains
import Iocom.DynamicTables
import Iocom.DynamicTableRuns
import Iocom.DynamicEvents
import Iocom.SerialConnection
