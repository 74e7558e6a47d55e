import NewProxy.FlowLoop

/-!
# The classification of received frames

An IO worker reads a frame from its queue, finds the flow worker it belongs to and
hands it over: datagrams of the tunnel by their connection id, DNS queries and
responses and all other intercepted packets by their flow. The walk over the headers
is its own, written against the Ethernet frame; the hash of the standard library is a
parameter.
-/
namespace NewProxy

open Outcome Packet

inductive DispatchOutcome where
  | accepted
  | droppedFull
  | droppedDisconnected
  | invalidWorker
  deriving DecidableEq

/-- One bounded channel to a flow worker. -/
structure FlowChannel where
  queue : List FlowMessage
  capacity : ℕ
  connected : Bool

structure FlowDispatcher where
  senders : List FlowChannel
  channelFullDrops : UInt64
  channelDisconnectedDrops : UInt64
  invalidWorkerDrops : UInt64

/-- `dispatch_to`: nothing waits for a full channel. -/
def FlowDispatcher.dispatchTo (dispatcher : FlowDispatcher) (workerId : ℕ)
    (message : FlowMessage) : DispatchOutcome × FlowDispatcher :=
  match dispatcher.senders[workerId]? with
  | none => (.invalidWorker,
      { dispatcher with invalidWorkerDrops := dispatcher.invalidWorkerDrops + 1 })
  | some channel =>
    if channel.connected = false then (.droppedDisconnected,
      { dispatcher with channelDisconnectedDrops := dispatcher.channelDisconnectedDrops + 1 })
    else if channel.queue.length < channel.capacity then (.accepted,
      { dispatcher with senders :=
          dispatcher.senders.set workerId { channel with queue := channel.queue ++ [message] } })
    else (.droppedFull, { dispatcher with channelFullDrops := dispatcher.channelFullDrops + 1 })

namespace IoWorker

def ethernetHeaderLen : ℕ := 14

abbrev ethPIpv4 : UInt16 := 0x0800
abbrev ethPIpv6 : UInt16 := 0x86dd

structure DnsLocalResponseClassifier where
  resolver : SocketAddr
  natIp : IpAddr
  firstNatPort : UInt16
  lastNatPort : UInt16

structure IoClassifierConfig where
  owner : IoOwnerKey
  tunnel : Bool
  intercept : Bool
  tunnelPort : UInt16
  tunnelLocalIps : List IpAddr
  natReturnIps : List IpAddr
  dnsListen : Option SocketAddr
  dnsLocalResponse : Option DnsLocalResponseClassifier
  dcidLen : ℕ
  flowWorkerCount : ℕ
  interceptPolicy : InterceptPolicy

inductive DropReason where
  | malformedEthernet
  | malformedIp
  | malformedUdp
  | invalidQuic
  | unknownDcid
  | unknownDnsTransaction
  | unknownNatTuple
  | fragmentedDns
  | invalidFlow
  | dispatchRejected (outcome : DispatchOutcome)
  deriving DecidableEq

inductive IngressOutcome where
  | passed
  | dispatched (workerId : ℕ)
  | dropped (reason : DropReason)
  deriving DecidableEq

structure ParsedIpFrame where
  ipPacket : Bytes
  source : IpAddr
  destination : IpAddr
  protocol : UInt8
  transportOffset : ℕ
  fragmented : Bool
  deriving DecidableEq

def parseIpv4Frame (packet : Bytes) : Outcome DropReason ParsedIpFrame := do
  let header ← okOr (packet.getRange 0 20) .malformedIp
  let first ← header.index 0
  ensure (first >>> 4 = 4) .malformedIp
  let headerLen := (first &&& 0x0f).toNat * 4
  let totalLen := (← header.word 2).toNat
  ensure (20 ≤ headerLen ∧ headerLen ≤ totalLen ∧ totalLen ≤ packet.length) .malformedIp
  let fragment ← header.word 6
  let ipPacket ← packet.range 0 totalLen
  let source ← header.range 12 16
  let destination ← header.range 16 20
  let protocol ← header.index 9
  return {
    ipPacket
    source := .v4 (source.octetsAt 4 0)
    destination := .v4 (destination.octetsAt 4 0)
    protocol
    transportOffset := headerLen
    fragmented := fragment &&& 0x3fff != 0 }

/-- Walks the extension headers, over a fragment header as well. -/
def ipv6TransportOffset (packet : Bytes) (totalLen : ℕ) :
    ℕ → UInt8 → ℕ → Bool → Outcome DropReason (UInt8 × ℕ × Bool)
  | 0, _, _, _ => fail .malformedIp
  | rounds + 1, nextHeader, offset, fragmented =>
    if nextHeader = ipProtocolHopByHop ∨ nextHeader = ipProtocolRouting ∨
        nextHeader = ipProtocolDestinationOptions then do
      let header ← okOr (packet.getRange offset (offset + 2)) .malformedIp
      let nextHeader ← header.index 0
      let headerLen := ((← header.index 1).toNat + 1) * 8
      ensure (offset + headerLen ≤ totalLen) .malformedIp
      ipv6TransportOffset packet totalLen rounds nextHeader (offset + headerLen) fragmented
    else if nextHeader = ipProtocolFragment then do
      let header ← okOr (packet.getRange offset (offset + 8)) .malformedIp
      let nextHeader ← header.index 0
      ensure (offset + 8 ≤ totalLen) .malformedIp
      ipv6TransportOffset packet totalLen rounds nextHeader (offset + 8) true
    else if nextHeader = ipProtocolAh then do
      let header ← okOr (packet.getRange offset (offset + 2)) .malformedIp
      let nextHeader ← header.index 0
      let headerLen := ((← header.index 1).toNat + 2) * 4
      ensure (offset + headerLen ≤ totalLen) .malformedIp
      ipv6TransportOffset packet totalLen rounds nextHeader (offset + headerLen) fragmented
    else .ok (nextHeader, offset, fragmented)

def parseIpv6Frame (packet : Bytes) : Outcome DropReason ParsedIpFrame := do
  let header ← okOr (packet.getRange 0 40) .malformedIp
  let first ← header.index 0
  ensure (first >>> 4 = 6) .malformedIp
  let totalLen := 40 + (← header.word 4).toNat
  ensure (totalLen ≤ packet.length) .malformedIp
  let nextHeader ← header.index 6
  let (protocol, transportOffset, fragmented) ←
    ipv6TransportOffset packet totalLen 8 nextHeader 40 false
  let ipPacket ← packet.range 0 totalLen
  let source ← header.range 8 24
  let destination ← header.range 24 40
  return {
    ipPacket
    source := .v6 (source.octetsAt 16 0)
    destination := .v6 (destination.octetsAt 16 0)
    protocol
    transportOffset
    fragmented }

def parseIpFrame (frame : Bytes) : Outcome DropReason ParsedIpFrame := do
  let ethernet ← okOr (frame.getRange 0 ethernetHeaderLen) .malformedEthernet
  let etherType ← ethernet.word 12
  let packet ← frame.range ethernetHeaderLen frame.length
  if etherType = ethPIpv4 then parseIpv4Frame packet
  else if etherType = ethPIpv6 then parseIpv6Frame packet
  else fail .malformedIp

/-- The connection id of a QUIC packet, and whether the packet may open a connection. -/
def parseQuicDcid (packet : Bytes) (fixedLen : ℕ) : Outcome DropReason (Bytes × Bool) := do
  let first : UInt8 ← okOr packet[0]? .invalidQuic
  ensure (fixedLen ≠ 0 ∧ fixedLen ≤ 20) .invalidQuic
  if first &&& 0x80 ≠ 0 then do
    let _ ← okOr (packet.getRange 1 5) .invalidQuic
    let dcidLen : UInt8 ← okOr packet[5]? .invalidQuic
    ensure (dcidLen.toNat ≠ 0 ∧ dcidLen.toNat ≤ 20) .invalidQuic
    let dcid ← okOr (packet.getRange 6 (6 + dcidLen.toNat)) .invalidQuic
    return (dcid, (first >>> 4) &&& 0x03 = 0)
  else do
    let dcid ← okOr (packet.getRange 1 (1 + fixedLen)) .invalidQuic
    return (dcid, false)

structure OuterQuic where
  dcid : Bytes
  remote : SocketAddr
  localIp : IpAddr
  payload : Bytes
  bootstrap : Bool

/-- `udp.get(8..udp_len)` of the UDP header that begins at the transport offset. -/
def udpPayload (parsed : ParsedIpFrame) : Outcome DropReason Bytes := do
  let udp ← okOr (parsed.ipPacket.getRange parsed.transportOffset parsed.ipPacket.length)
    .malformedUdp
  let header ← okOr (udp.getRange 0 8) .malformedUdp
  let udpLen := (← header.word 4).toNat
  okOr (udp.getRange 8 udpLen) .malformedUdp

def parseOuterQuic (frame : ParsedIpFrame) (tunnelPort : UInt16) (fixedDcidLen : ℕ) :
    Outcome DropReason (Option OuterQuic) := do
  if frame.protocol ≠ ipProtocolUdp then return none
  else do
    let udp ← okOr (frame.ipPacket.getRange frame.transportOffset frame.ipPacket.length)
      .malformedUdp
    let header ← okOr (udp.getRange 0 8) .malformedUdp
    let sourcePort ← header.word 0
    let destinationPort ← header.word 2
    if destinationPort ≠ tunnelPort then return none
    else do
      let udpLen := (← header.word 4).toNat
      let payload ← okOr (udp.getRange 8 udpLen) .malformedUdp
      let (dcid, bootstrap) ← parseQuicDcid payload fixedDcidLen
      return some {
        dcid
        remote := ⟨frame.source, sourcePort⟩
        localIp := frame.destination
        payload
        bootstrap }

/-- Source and destination port of a UDP header, as far as the packet has them. -/
def udpPorts (parsed : ParsedIpFrame) : Option (UInt16 × UInt16) :=
  (parsed.ipPacket.getRange parsed.transportOffset (parsed.transportOffset + 4)).map
    fun udp => (udp.wordAt 0, udp.wordAt 2)

def isDnsVipQuery (config : IoClassifierConfig) (parsed : ParsedIpFrame) : Bool :=
  match config.dnsListen with
  | none => false
  | some listen =>
    if parsed.destination ≠ listen.ip ∨ parsed.protocol ≠ ipProtocolUdp then false
    else match udpPorts parsed with
      | none => false
      | some (_, destinationPort) => destinationPort = listen.port

def isDnsLocalResolverResponse (config : IoClassifierConfig) (parsed : ParsedIpFrame) : Bool :=
  match config.dnsLocalResponse with
  | none => false
  | some classifier =>
    if parsed.source ≠ classifier.resolver.ip ∨ parsed.destination ≠ classifier.natIp ∨
        parsed.protocol ≠ ipProtocolUdp then false
    else match udpPorts parsed with
      | none => false
      | some (sourcePort, destinationPort) => sourcePort = classifier.resolver.port ∧
          classifier.firstNatPort ≤ destinationPort ∧ destinationPort ≤ classifier.lastNatPort

def octets : IpAddr → Bytes
  | .v4 address => address.toList
  | .v6 address => address.toList

/-- `protocol as u8`: the position in the declaration. -/
def discriminant : TransportProtocol → UInt8
  | .tcp => 0
  | .udp => 1
  | .icmp => 2
  | .icmpv6 => 3

def stableFlowOwner (flow : FlowKey) (workerCount : ℕ) : ℕ :=
  if workerCount = 0 then 0
  else
    let bytes := octets flow.source ++ octets flow.destination ++ be16Bytes flow.sourcePort ++
      be16Bytes flow.destinationPort ++ [discriminant flow.protocol]
    (Dns.fnv1a bytes).toNat % workerCount

/-- `hash` is what `DefaultHasher` makes of the owner and the transaction key. -/
def stableDnsOwner (hash : IoOwnerKey → DnsTransactionKey → UInt64) (owner : IoOwnerKey)
    (flow : FlowKey) (payload : Bytes) (workerCount : ℕ) : Outcome DropReason ℕ := do
  if workerCount = 0 then return 0
  else do
    let key ← Dns.transactionKey ⟨flow.source, flow.sourcePort⟩ payload
    return (hash owner key).toNat % workerCount

def dispatchOutcome (workerId : ℕ) : DispatchOutcome → IngressOutcome
  | .accepted => .dispatched workerId
  | other => .dropped (.dispatchRejected other)

/-- The message goes to the worker's channel. -/
def dispatch (workerId : ℕ) (message : FlowMessage) :
    Act FlowDispatcher DropReason IngressOutcome where
  run dispatcher :=
    let (outcome, dispatcher) := dispatcher.dispatchTo workerId message
    (.ok (dispatchOutcome workerId outcome), dispatcher)

/-- The worker for a datagram of the tunnel. -/
def tunnelOwner (config : IoClassifierConfig) (activeDcids : ActiveDcidIndex) (outer : OuterQuic) :
    Outcome DropReason ℕ :=
  match activeDcids.resolve outer.dcid with
  | some owner => .ok owner.flowWorkerId
  | none =>
    if outer.bootstrap then
      (bootstrapOwner outer.dcid config.flowWorkerCount).mapErr fun _ => .invalidQuic
    else fail .unknownDcid

/-- The trace of a rejected datagram shows its first bytes. -/
def traceRejected (parsed : ParsedIpFrame) : Outcome DropReason Bytes :=
  let payload := (parsed.ipPacket.getRange (parsed.transportOffset + 8)
    parsed.ipPacket.length).getD []
  payload.range 0 (min payload.length 16)

def handleTunnel (config : IoClassifierConfig) (parsed : ParsedIpFrame)
    (activeDcids : ActiveDcidIndex) : Act FlowDispatcher DropReason IngressOutcome := do
  match ← Act.call (parseOuterQuic parsed config.tunnelPort config.dcidLen).attempt with
  | .ok (some outer) => do
    let workerId ← Act.call (tunnelOwner config activeDcids outer)
    dispatch workerId (.tunnelIngress config.owner outer.dcid outer.remote outer.localIp
      outer.payload)
  | .ok none => return .passed
  | .error reason => do
    let _ ← Act.call (traceRejected parsed)
    Act.fail reason

/-- `parse_flow_key`, with its errors folded into one. -/
def flowOf (packet : Bytes) : Outcome DropReason FlowKey :=
  (parseFlowKey packet).mapErr fun _ => .invalidFlow

def handleIntercept (hash : IoOwnerKey → DnsTransactionKey → UInt64) (config : IoClassifierConfig)
    (parsed : ParsedIpFrame) (reverseNat : ReverseNatDirectory) :
    Act FlowDispatcher DropReason IngressOutcome := do
  if isDnsVipQuery config parsed then do
    Act.call (ensure (parsed.fragmented = false) .fragmentedDns)
    let flow ← Act.call (flowOf parsed.ipPacket)
    let payload ← Act.call (udpPayload parsed)
    let workerId ← Act.call (stableDnsOwner hash config.owner flow payload config.flowWorkerCount)
    dispatch workerId (.interceptIngress config.owner parsed.ipPacket none)
  else if isDnsLocalResolverResponse config parsed then do
    Act.call (ensure (parsed.fragmented = false) .fragmentedDns)
    let flow ← Act.call (flowOf parsed.ipPacket)
    let locator ← Act.call (okOr (reverseNat.lookup flow) .unknownDnsTransaction)
    dispatch locator.flowWorkerId (.interceptIngress config.owner parsed.ipPacket (some locator))
  else do
    let flow ← Act.call (flowOf parsed.ipPacket)
    match reverseNat.lookup flow with
    | some locator =>
      dispatch locator.flowWorkerId (.interceptIngress config.owner parsed.ipPacket (some locator))
    | none => do
      Act.call (ensure (parsed.destination ∉ config.natReturnIps) .unknownNatTuple)
      if interceptAllowed config.interceptPolicy parsed.ipPacket then
        dispatch (stableFlowOwner flow config.flowWorkerCount)
          (.interceptIngress config.owner parsed.ipPacket none)
      else return .passed

/-- The body of `handle_frame`; every early `Dropped` is its error. -/
def classify (hash : IoOwnerKey → DnsTransactionKey → UInt64) (config : IoClassifierConfig)
    (frame : Bytes) (activeDcids : ActiveDcidIndex) (reverseNat : ReverseNatDirectory) :
    Act FlowDispatcher DropReason IngressOutcome := do
  let parsed ← Act.call (parseIpFrame frame)
  if config.tunnel ∧ parsed.destination ∈ config.tunnelLocalIps then
    handleTunnel config parsed activeDcids
  else if config.intercept = false then return .passed
  else handleIntercept hash config parsed reverseNat

def handleFrame {ε : Type} (hash : IoOwnerKey → DnsTransactionKey → UInt64)
    (config : IoClassifierConfig) (frame : Bytes) (activeDcids : ActiveDcidIndex)
    (reverseNat : ReverseNatDirectory) : Act FlowDispatcher ε IngressOutcome := do
  match ← Act.attempt (classify hash config frame activeDcids reverseNat) with
  | .ok outcome => return outcome
  | .error reason => return .dropped reason

end IoWorker

end NewProxy
