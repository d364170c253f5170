import MiniRtc.Lib.Bytes
import MiniRtc.Lib.Runs
import MiniRtc.Lib.Wrapping
import MiniRtc.Lib.Leb128
import MiniRtc.Lib.Logs
import MiniRtc.Lib.SortedMap
import MiniRtc.Lib.Text
import MiniRtc.Lib.Json
import MiniRtc.Lib.Octets
import MiniRtc.Common.TaskQueue
import MiniRtc.Common.TaskQueueLockFree
import MiniRtc.Rtp.Packet
import MiniRtc.Rtp.Packetizer
import MiniRtc.Rtp.Generic
import MiniRtc.Rtp.Layout
import MiniRtc.Rtp.Rtx
import MiniRtc.Rtcp.Feedback
import MiniRtc.Rtcp.FeedbackRoundTrip
import MiniRtc.Data.Reliable
import MiniRtc.Video.Assembly
import MiniRtc.Video.Reassembly
import MiniRtc.Video.Nack
import MiniRtc.Video.Receiver
import MiniRtc.Video.Insertion
import MiniRtc.Video.Fragments
import MiniRtc.Video.H264
import MiniRtc.Video.H264RoundTrip
import MiniRtc.Video.Obu
import MiniRtc.Video.ObuParser
import MiniRtc.Video.Av1
import MiniRtc.Video.Av1RoundTrip
import MiniRtc.Video.System
import MiniRtc.Video.Delivery
import MiniRtc.Video.DeliveryOrder
import MiniRtc.Video.NackWatch
import MiniRtc.Video.Holes
import MiniRtc.Video.HoleFree
import MiniRtc.Qos.FeedbackTracker
import MiniRtc.Qos.FeedbackReports
import MiniRtc.Qos.FeedbackFaithful
import MiniRtc.Qos.TransportFeedbackAdapter
import MiniRtc.Qos.InFlight
import MiniRtc.Transport.VideoSender
import MiniRtc.Transport.SenderRegions
import MiniRtc.Transport.EncodeQueue
import MiniRtc.Transport.KeyframeRequests
import MiniRtc.Transport.ReferenceChain
import MiniRtc.Transport.BitrateUpdates
import MiniRtc.Transport.PendingNacks
import MiniRtc.Web.InputRouter
import MiniRtc.Web.MediaHandler
import MiniRtc.Web.MediaAccounts
import MiniRtc.Web.MediaWorker
import MiniRtc.Web.MediaFlow
import MiniRtc.Web.MediaPacer
import MiniRtc.Sdp.Sections
import MiniRtc.Sdp.Transport
import MiniRtc.Ice.CandidateSignal
import MiniRtc.Ice.DirectPolicy
import MiniRtc.Ice.PunchProtocol
import MiniRtc.Ice.PunchCodec
import MiniRtc.Ice.PunchBudget
import MiniRtc.Ice.PunchRuntime
import MiniRtc.Ice.PunchMoves
import MiniRtc.Ice.PunchRuns
import MiniRtc.Ice.PunchArbitration
import MiniRtc.Transport.RemoteCandidates
import MiniRtc.Pc.DirectPeer
import MiniRtc.Lib.Reads
import MiniRtc.Lib.WindowMin
import MiniRtc.Common.SystemClock
import MiniRtc.Rtcp.Reports
import MiniRtc.Rtcp.Requests
import MiniRtc.Transport.RtcpInput
import MiniRtc.Video.ReceiverStats
import MiniRtc.Video.ReportAccounts
import MiniRtc.Transport.ReportedRtt
import MiniRtc.Sdp.PayloadTypes
import MiniRtc.Transport.BandwidthMapping
import MiniRtc.Transport.BandwidthCeiling
import MiniRtc.Rtp.Build
import MiniRtc.Rtp.PacketHistory
import MiniRtc.Rtp.HistoryRuns
import MiniRtc.Video.NackAccounts
import MiniRtc.Video.Leftovers
import MiniRtc.Ice.PunchReplay
import MiniRtc.Lib.Sampling
import MiniRtc.Ice.PunchSampling
import MiniRtc.Fec.Adaptation
import MiniRtc.Fec.Hysteresis
import MiniRtc.Transport.FecBudget
import MiniRtc.Fec.Gf256
import MiniRtc.Lib.RowReduction
import MiniRtc.Fec.SmallRs
import MiniRtc.Fec.Codec
import MiniRtc.Fec.Sender
import MiniRtc.Fec.RepairCredit
import MiniRtc.Fec.RepairRate
import MiniRtc.Fec.RepairOverhead
import MiniRtc.Lib.LongestRun
import MiniRtc.Fec.Tracker
import MiniRtc.Fec.TrackerLog
import MiniRtc.Fec.TrackerSnapshot
import MiniRtc.Lib.JsonDump
import MiniRtc.Ice.PunchMapping
import MiniRtc.Ice.PunchHello
import MiniRtc.Ice.PunchAgreement
import MiniRtc.Ice.PunchPlans
import MiniRtc.Fec.SmallSolver
import MiniRtc.Common.NtpRoundTrip
import MiniRtc.Statistics.LossCount
import MiniRtc.Rtcp.ExtendedReport
import MiniRtc.Transport.RttProbes
import MiniRtc.Transport.RttExchange
import MiniRtc.Rtp.Timestamp
import MiniRtc.Lib.Binary32
import MiniRtc.Lib.RootRatio
import MiniRtc.Video.StrictAspect
import MiniRtc.Video.ResolutionLadder
import MiniRtc.Web.QosController
import MiniRtc.Web.RateBudget
import MiniRtc.Web.RtcpHandler
import MiniRtc.Web.RtcpEntries
import MiniRtc.Web.RtcpRuns
import MiniRtc.Lib.LeastSquares
import MiniRtc.Rtp.CaptureTime
import MiniRtc.Rtp.CaptureRuns
import MiniRtc.Rtp.CaptureLine
import MiniRtc.Transport.FrameCadence
import MiniRtc.Lib.TokenBucket
import MiniRtc.Ice.PunchSchedule
import MiniRtc.Ice.PortPrediction
import MiniRtc.Lib.BlockLoop
import MiniRtc.Fec.FieldKernels
import MiniRtc.Lib.BitWords
import MiniRtc.Lib.Reading
import MiniRtc.Video.BitReader
import MiniRtc.Video.BitstreamParser
import MiniRtc.Video.HeaderSyntax
import MiniRtc.Video.HeaderReading
import MiniRtc.Video.SliceReading
import MiniRtc.Video.BitstreamSafety
import MiniRtc.Video.AnnexB
import MiniRtc.Lib.AgedCache
import MiniRtc.Fec.Receiver
import MiniRtc.Fec.ReceiverAccounts
import MiniRtc.Fec.SentBlocks
import MiniRtc.Fec.RepairReading
import MiniRtc.Fec.Restoration
