import Bonded.TunIsolation
import Bonded.HandshakeEffects
import Bonded.FrameAcceptance
import Bonded.PathIndependence
import Bonded.InviteRedemption
import Bonded.KeyWatcher
import Bonded.HandshakeAgreement
import Bonded.DomainSeparation
import Bonded.WireGuardTunnels
import Bonded.WireGuardPeerTask
import Bonded.TransportDelivery
import Bonded.TransportSend
import Bonded.PollWakeup
import Bonded.PollShutdown
import Bonded.PathSafety
import Bonded.TunRoutes
import Bonded.RelayAccept
import Bonded.HttpRouting
import Bonded.Promotion
import Bonded.BridgeLifecycle
import Bonded.PacketCodec
import Bonded.ActiveTuples
import Bonded.UpstreamBytes
import Bonded.PrependedStream
import Bonded.FrameLength
import Bonded.TextHandoff
import Bonded.ServerLoops
import Bonded.RecvCancellation
import Bonded.UdpFlowRuns
import Bonded.PeerDiscovery
import Bonded.NetworkRuntime
import Bonded.AcmeCycle
import Bonded.PathEstablishment
import Bonded.StatusPage
import Bonded.RelayForwarding
import Bonded.PairedServers
import Bonded.PendingOutbound
import Bonded.TunnelWrapping
