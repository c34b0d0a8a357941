import WebrtcStreamer.Transition
import WebrtcStreamer.Ledger
import WebrtcStreamer.StdText
import WebrtcStreamer.StreamLabel
import WebrtcStreamer.Manager
import WebrtcStreamer.Requests
import WebrtcStreamer.Machine
import WebrtcStreamer.Ownership
import WebrtcStreamer.HangUpAccounting
import WebrtcStreamer.ObserverLifetime
import WebrtcStreamer.PeerLimit
import WebrtcStreamer.SharedSources
import WebrtcStreamer.StreamsInUse
import WebrtcStreamer.Replies
import WebrtcStreamer.DescriptionPromises
import WebrtcStreamer.Isolation
import WebrtcStreamer.ObserverLeaks
import WebrtcStreamer.StreamEntries
import WebrtcStreamer.HangUpRace
import WebrtcStreamer.KeyFrames
import WebrtcStreamer.VideoScaler
import WebrtcStreamer.Api
import WebrtcStreamer.ApiSafety
import WebrtcStreamer.WhepStatus
import WebrtcStreamer.CapturerOptions
import WebrtcStreamer.DecoderThread
import WebrtcStreamer.RtmpVideo
import WebrtcStreamer.DecoderRecovery
import WebrtcStreamer.NullCodec
import WebrtcStreamer.AudioDevice
import WebrtcStreamer.LiveAudio
import WebrtcStreamer.CodecChoice
import WebrtcStreamer.BufferAccess
import WebrtcStreamer.RtmpBounds
import WebrtcStreamer.RtmpConfig
import WebrtcStreamer.NaluIndexes
import WebrtcStreamer.SliceFrames
import WebrtcStreamer.ParameterCache
import WebrtcStreamer.Base64
import WebrtcStreamer.FrameTimes
import WebrtcStreamer.InitFrames
import WebrtcStreamer.OutputSize
import WebrtcStreamer.AudioSegments
import WebrtcStreamer.AudioSessions
import WebrtcStreamer.DecodedTimes
import WebrtcStreamer.ClientNumbers
import WebrtcStreamer.Eviction
import WebrtcStreamer.OptionText
import WebrtcStreamer.IceServers
import WebrtcStreamer.WhepLocation
import WebrtcStreamer.TrickledCandidates
import WebrtcStreamer.GatheredCandidates
import WebrtcStreamer.V4l2Capturer
import WebrtcStreamer.V4l2AlsaMap
import WebrtcStreamer.NullConnections
import WebrtcStreamer.ReportedDescriptions
import WebrtcStreamer.BandwidthFigures
import WebrtcStreamer.Draining
import WebrtcStreamer.Completion
import WebrtcStreamer.LockOrder
import WebrtcStreamer.ServerLocks
import WebrtcStreamer.OwnStreams
import WebrtcStreamer.EncodedPath
import WebrtcStreamer.MediaList
import WebrtcStreamer.NamedStreams
import WebrtcStreamer.HttpStream
import WebrtcStreamer.HttpReplies
import WebrtcStreamer.Sharing
import WebrtcStreamer.HangUps
import WebrtcStreamer.Pacing
import WebrtcStreamer.Playback
import WebrtcStreamer.WhepSessions
import WebrtcStreamer.Worker
import WebrtcStreamer.CaptureThreads
import WebrtcStreamer.Transports
import WebrtcStreamer.PeerReport
import WebrtcStreamer.TurnClients
import WebrtcStreamer.PortRange
