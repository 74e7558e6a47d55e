import NewProxy.PacketGrammar
import NewProxy.TcpTracking
import NewProxy.DcidIndex
import NewProxy.IoWakeup
import NewProxy.XskConservation
import NewProxy.FragmentDelivery
import NewProxy.DnsWalkers
import NewProxy.OuterRoundTrip
import NewProxy.PortReservation
import NewProxy.DnsMemory
import NewProxy.DomainRouting
import NewProxy.Emitted
import NewProxy.EngineReplacement
import NewProxy.ClientRecovery
import NewProxy.StaleLocators
import NewProxy.HexKey
import NewProxy.PolicyAgreement
