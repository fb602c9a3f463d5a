import Stratus.Lib.Transition
import Stratus.Lib.Cyclic
import Stratus.Lib.Word
import Stratus.Lib.Frames
import Stratus.Lib.Heap
import Stratus.Lib.Ledger
import Stratus.Lib.History
import Stratus.Lib.Outcome
import Stratus.Lib.Raster
import Stratus.Lib.Pattern
import Stratus.Lib.Coroutine
import Stratus.Lib.Phases
import Stratus.Lib.Json
import Stratus.Lib.JsValue
import Stratus.Lib.OrderedMap
import Stratus.Lib.Deframe
import Stratus.Lib.CString
import Stratus.Lib.Splice
import Stratus.Lib.Blocks
import Stratus.Lib.Double
import Stratus.Lib.PosixPath
import Stratus.Lib.UriComponent
import Stratus.Common.Rbuf
import Stratus.Common.RbufInvariant
import Stratus.Common.RbufSteps
import Stratus.Common.RbufOwnership
import Stratus.Common.RbufQueue
import Stratus.Common.RbufClient
import Stratus.Common.RingBuffer
import Stratus.Capture.Protocol
import Stratus.Capture.WlMap
import Stratus.Capture.ProxyMessage
import Stratus.Capture.ProxyTable
import Stratus.Capture.ProxyData
import Stratus.Capture.ProxyFraming
import Stratus.Capture.ProxyLoop
import Stratus.Capture.ProxyRun
import Stratus.Capture.ProxyCreate
import Stratus.Capture.Objects
import Stratus.Capture.Messages
import Stratus.Capture.Changes
import Stratus.Capture.LifeCycle
import Stratus.Capture.LifeCycleSteps
import Stratus.Capture.LifeCycleHandlers
import Stratus.Capture.LifeCycleRuns
import Stratus.Capture.PlaneRequests
import Stratus.Capture.Descriptors
import Stratus.Capture.QueuedFrames
import Stratus.Capture.ReleaseEvents
import Stratus.Capture.Releases
import Stratus.Capture.ReleaseProtocol
import Stratus.Backend.StoreRecovery
import Stratus.Backend.StoreValidation
import Stratus.Backend.LimiterWindows
import Stratus.Backend.LocalStore
import Stratus.Backend.DurableStore
import Stratus.Backend.Accounts
import Stratus.Backend.AccountPhases
import Stratus.Backend.UniqueUsers
import Stratus.Backend.PersistReload
import Stratus.Backend.InstalledGames
import Stratus.Backend.ManifestNesting
import Stratus.Backend.DownloadStatus
import Stratus.Backend.DownloadTrigger
import Stratus.Backend.SingleBootstrap
import Stratus.Backend.RateLimiter
import Stratus.Backend.LoginAttempts
import Stratus.Backend.SessionBroker
import Stratus.Backend.BrokerEffects
import Stratus.Backend.BrokerRuns
import Stratus.Backend.PendingStarts
import Stratus.Backend.NodeSessions
import Stratus.Backend.CatalogClaims
import Stratus.Backend.Confirmations
import Stratus.SideCar.Session
import Stratus.SideCar.Catalog
import Stratus.SideCar.Heartbeat
import Stratus.SideCar.AdvertisedGames
import Stratus.SideCar.ApiPoll
import Stratus.SideCar.StartMessages
import Stratus.SideCar.Daemon
import Stratus.SideCar.RemoteStops
import Stratus.SideCar.OneSession
import Stratus.SideCar.SessionStart
import Stratus.SideCar.SessionLife
import Stratus.Transport.MediaPackets
import Stratus.Frontend.ChunkRingBuffer
import Stratus.Frontend.MediaWorkers
import Stratus.Frontend.MediaFraming
import Stratus.Frontend.ByteQueue
import Stratus.Frontend.DecoderCalls
import Stratus.Frontend.ConsecutiveStreams
import Stratus.Frontend.AudioCalls
import Stratus.Frontend.AudioRenderer
import Stratus.Frontend.CongestionDrops
import Stratus.Frontend.DecoderErrors
import Stratus.Frontend.InputStream
import Stratus.Input.Gamepad
import Stratus.Input.GamepadEvents
import Stratus.Input.Session
import Stratus.Input.Slots
import Stratus.Input.PacketCodec
import Stratus.Input.InputPath
import Stratus.Input.WholePackets
import Stratus.Input.LastState
import Stratus.Input.RawMessages
import Stratus.Encode.KeyFrames
import Stratus.Encode.FrameBounds
import Stratus.Encode.PixelAddressing
import Stratus.CapturePw.AudioFormat
import Stratus.Encode.AudioBlocks
import Stratus.Encode.DmaResources
import Stratus.Frontend.ChunkBatches
import Stratus.Frontend.GamepadIndexes
import Stratus.Lib.IndexPool
import Stratus.Frontend.ClientState
import Stratus.Frontend.BlogAssets
import Stratus.Lib.Codec
import Stratus.Lib.LittleEndian
import Stratus.Capture.WireFormat
import Stratus.Capture.WireRoundTrip
import Stratus.Capture.ProxyForward
import Stratus.Capture.WlRing
import Stratus.Capture.WlFlush
import Stratus.Transport.TransportThread
import Stratus.Encode.EncodeLoop
import Stratus.Transport.Fingerprint
import Stratus.Capture.ProxyStreams
import Stratus.Capture.Resize
