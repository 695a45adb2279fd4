import OpenPair.Pairing.PeerAuthentication
import OpenPair.Pairing.ServerAuthentication
import OpenPair.Pairing.Panics
import OpenPair.Pairing.Transcript
import OpenPair.Pairing.Finality
import OpenPair.Pairing.KeyFreshness
import OpenPair.Pairing.MessageOrder
import OpenPair.Pairing.Agreement
import OpenPair.Cluster.Identity
import OpenPair.Cluster.HonestPairing
import OpenPair.Cluster.Drivers
import OpenPair.Trust.ClusterDir
import OpenPair.Proxy.Transparency
import OpenPair.Library.Tasks
import OpenPair.Cluster.Node
import OpenPair.Library.Unwinding
import OpenPair.Cluster.NodeRuns
import OpenPair.Cluster.Isolation
import OpenPair.Cluster.Invites
import OpenPair.Cluster.Guesses
import OpenPair.Cluster.NodeExchange
import OpenPair.Cluster.Teardown
import OpenPair.Cluster.NodeJoining
import OpenPair.Cluster.Pending
import OpenPair.Cluster.Retry
import OpenPair.Pairing.Rejections
import OpenPair.Trust.ClusterInit
import OpenPair.Trust.ReferenceKeys
import OpenPair.Trust.KeyMatch
import OpenPair.Cluster.TrustSink
import OpenPair.Library.LastWrite
import OpenPair.Trust.Restart
import OpenPair.Library.ByteReader
import OpenPair.Rpc.Framing
import OpenPair.Library.JsonTree
import OpenPair.Library.SortedMap
import OpenPair.Library.JsonValue
import OpenPair.Rpc.Messages
import OpenPair.Library.Mirror
import OpenPair.Daemon.Discovery
import OpenPair.Daemon.Peers
import OpenPair.Daemon.Effects
import OpenPair.Daemon.PinnedFlags
import OpenPair.Daemon.IngressPorts
import OpenPair.Cluster.SingleCluster
import OpenPair.Proxy.Selection
import OpenPair.Proxy.RoutingRuns
import OpenPair.Proxy.IterationOrder
import OpenPair.Proxy.DefaultTag
import OpenPair.Proxy.LocalPaths
import OpenPair.Library.BlockStream
import OpenPair.Pairing.KdfSpec
import OpenPair.Pairing.Negotiation
import OpenPair.Pairing.KdfContext
import OpenPair.Pairing.ErrorCodes
import OpenPair.Pairing.Verbatim
import OpenPair.Cluster.InfoJson
import OpenPair.Pairing.FrozenTranscript
import OpenPair.Cluster.Phases
import OpenPair.Trust.PinHistory
import OpenPair.Trust.Membership
import OpenPair.Trust.DevTrust
import OpenPair.Rpc.FrameGrammar
import OpenPair.Rpc.Classification
import OpenPair.NodeInfo.Amd
import OpenPair.Daemon.TxtRoundTrip
import OpenPair.NodeInfo.Nvidia
import OpenPair.Codec
import OpenPair.Proxy.Mesh
import OpenPair.Proxy.IngressJson
import OpenPair.Daemon.ModelReports
import OpenPair.Daemon.Dashboards
import OpenPair.Cluster.Channel
import OpenPair.Trust.Bootstrap
import OpenPair.Trust.MembershipJson
import OpenPair.NodeInfo.Detect
import OpenPair.NodeInfo.Telemetry
import OpenPair.Daemon.PairedRouting
import OpenPair.Library.Operated
import OpenPair.Cluster.OfferedPins
import OpenPair.Cluster.Commands
import OpenPair.Cluster.HonestCommands
import OpenPair.Cluster.InviteCommand
import OpenPair.Cluster.JoinCommand
