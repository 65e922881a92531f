import CongestionResponse.Lib.OrderedMap
import CongestionResponse.Lib.Run
import CongestionResponse.Lib.BinaryFloat
import CongestionResponse.Quic.Units
import CongestionResponse.Quic.WindowedFilter
import CongestionResponse.DelayBbr.Sampler
import CongestionResponse.DelayBbr.Sender
import CongestionResponse.DelayBbr.Bookkeeping
import CongestionResponse.DelayBbr.DeliveryRate
import CongestionResponse.ClusterBbr.Cluster
import CongestionResponse.ClusterBbr.Sender
import CongestionResponse.ClusterBbr.Chain
import CongestionResponse.ClusterBbr.Graph
import CongestionResponse.ClusterBbr.Runs
import CongestionResponse.Lib.Wire
import CongestionResponse.Quic.DataIO
import CongestionResponse.Framer.Frames
import CongestionResponse.Framer.Parser
import CongestionResponse.Framer.AckWriter
import CongestionResponse.Framer.AckRoundTrip
import CongestionResponse.Framer.Truncation
import CongestionResponse.DelayBbr.Modes
import CongestionResponse.Quic.MinRttClock
import CongestionResponse.Expiry
import CongestionResponse.Quic.PacketQueue
import CongestionResponse.Quic.BandwidthSampler
import CongestionResponse.DelayBbr.SamplerRefinement
import CongestionResponse.ClusterBbr.Tally
import CongestionResponse.ClusterBbr.History
import CongestionResponse.ClusterBbr.Estimates
import CongestionResponse.ClusterBbr.Epochs
import CongestionResponse.ClusterBbr.OnceEstimated
import CongestionResponse.ClusterBbr.RateFloor
import CongestionResponse.NsQuic.Datagrams
import CongestionResponse.NsQuic.ReceivedPackets
import CongestionResponse.NsQuic.Receiver
import CongestionResponse.NsQuic.AckAcceptance
import CongestionResponse.NsQuic.AckEffects
import CongestionResponse.NsQuic.Acknowledged
import CongestionResponse.NsQuic.AckOrder
import CongestionResponse.Framer.Safety
import CongestionResponse.NsQuic.AckDelay
import CongestionResponse.DelayBbr.Freshness
import CongestionResponse.DelayBbr.Gains
import CongestionResponse.Lib.VirtualSchedule
import CongestionResponse.Pacing
import CongestionResponse.DelayBbr.RttUpdates
import CongestionResponse.DelayBbr.DelaySignal
import CongestionResponse.DelayBbr.RoundTrips
import CongestionResponse.DelayBbr.MinRttAge
import CongestionResponse.DelayBbr.Arithmetic
import CongestionResponse.ClusterBbr.Steps
import CongestionResponse.ClusterBbr.Reports
import CongestionResponse.ClusterBbr.Pruning
import CongestionResponse.ClusterBbr.ProbeRtt
import CongestionResponse.ClusterBbr.Dispatches
import CongestionResponse.ClusterBbr.Credits
import CongestionResponse.Lib.Gaps
import CongestionResponse.NsQuic.Traces
import CongestionResponse.NsQuic.SpuriousAcks
import CongestionResponse.ClusterBbr.Announcements
import CongestionResponse.NsQuic.SenderInput
import CongestionResponse.Libquic.AckEncoder
import CongestionResponse.Lib.NumberedQueue
import CongestionResponse.SentPackets.AckFrames
import CongestionResponse.SentPackets.FasterDetection
import CongestionResponse.SentPackets.FasterRuns
import CongestionResponse.NsQuic.Application
import CongestionResponse.NsQuic.ManagerCalls
import CongestionResponse.NsQuic.HeartBeats
import CongestionResponse.NsQuic.NamedPackets
import CongestionResponse.NsQuic.Network
import CongestionResponse.Framer.FrameGrammar
import CongestionResponse.Framer.PacketHeader
