import NewProxy.BpfMaps

/-!
# The XDP program

`xdp_filter.c` as a function of the maps and the bytes of a frame. The program
is a row of tests, each of which may settle the frame or hand it to the next
one; a test is an optional verdict. Array maps always have their one cell, so a
lookup in them cannot fail. `redirect` hands the frame to the socket of its
receive queue.
-/
namespace NewProxy

inductive XdpAction where
  | pass
  | drop
  | redirect
  deriving DecidableEq

/-- An action, or one of the two counted drops. -/
inductive XdpVerdict where
  | act (action : XdpAction)
  | parserDrop
  | dnsFragmentDrop
  deriving DecidableEq

namespace XdpVerdict

abbrev pass : XdpVerdict := .act .pass
abbrev drop : XdpVerdict := .act .drop
abbrev redirectQueue : XdpVerdict := .act .redirect

/-- The action of a verdict and what it counts. -/
def settle (maps : BpfMaps) : XdpVerdict → XdpAction × BpfMaps
  | .act action => (action, maps)
  | .parserDrop => (.drop, { maps with parserDrops := maps.parserDrops + 1 })
  | .dnsFragmentDrop => (.drop, { maps with dnsFragmentDrops := maps.dnsFragmentDrops + 1 })

end XdpVerdict

namespace BpfMaps

variable (maps : BpfMaps)

def hasTunnelRole : Bool := maps.roleFlags &&& 1 ≠ 0

def hasInterceptRole : Bool := maps.roleFlags &&& 2 ≠ 0

def isTunnelV4 (destination : Vector UInt8 4) : Bool :=
  maps.tunnelIpFlags &&& 1 ≠ 0 && destination = maps.tunnelV4

def isTunnelV6 (destination : Vector UInt8 16) : Bool :=
  maps.tunnelIpFlags &&& 2 ≠ 0 && destination = maps.tunnelV6

def isDnsV4 (destination : Vector UInt8 4) : Bool :=
  maps.dnsIpFlags &&& 1 ≠ 0 && destination = maps.dnsV4

def isDnsV6 (destination : Vector UInt8 16) : Bool :=
  maps.dnsIpFlags &&& 2 ≠ 0 && destination = maps.dnsV6

def isDnsLocalResponseV4 (source destination : Vector UInt8 4) : Bool :=
  maps.dnsLocalFlags &&& 1 ≠ 0 && source = maps.dnsLocalResolverV4 && destination = maps.dnsNatV4

def isDnsLocalResponseV6 (source destination : Vector UInt8 16) : Bool :=
  maps.dnsLocalFlags &&& 2 ≠ 0 && source = maps.dnsLocalResolverV6 && destination = maps.dnsNatV6

/-- The ports of a resolver's answer to an SNAT port. -/
def isDnsLocalPort (source destination : UInt16) : Bool :=
  source = maps.dnsLocalResolverPort && maps.dnsNatPortStart ≤ destination &&
    destination ≤ maps.dnsNatPortEnd

end BpfMaps

def isPublicV4 (address : Vector UInt8 4) : Bool :=
  let a := Bytes.byteAt address.toList 0
  let b := Bytes.byteAt address.toList 1
  let c := Bytes.byteAt address.toList 2
  !(a = 0 || a = 10 || a = 127 || a ≥ 224) &&
    !(a = 100 && b ≥ 64 && b ≤ 127) &&
    !(a = 169 && b = 254) &&
    !(a = 172 && b ≥ 16 && b ≤ 31) &&
    !(a = 192 && b = 168) &&
    !(a = 192 && b = 0 && (c = 0 || c = 2)) &&
    !(a = 192 && b = 31 && c = 196) &&
    !(a = 192 && b = 52 && c = 193) &&
    !(a = 192 && b = 88 && c = 99) &&
    !(a = 192 && b = 175 && c = 48) &&
    !(a = 198 && (b = 18 || b = 19)) &&
    !(a = 198 && b = 51 && c = 100) &&
    !(a = 203 && b = 0 && c = 113) &&
    !(address.toList.all (· = 255))

def isPublicV6 (address : Vector UInt8 16) : Bool :=
  let octet := Bytes.byteAt address.toList
  let first := octet 0
  let second := octet 1
  !(address.toList.all (· = 0)) &&
    !((address.toList.take 15).all (· = 0) && octet 15 = 1) &&
    !(first = 0xff) &&
    !(first = 0xfe && second &&& 0xc0 = 0x80) &&
    !(first = 0xfe && second &&& 0xc0 = 0xc0) &&
    !(first &&& 0xfe = 0xfc) &&
    !((address.toList.take 10).all (· = 0) && octet 10 = 0xff && octet 11 = 0xff) &&
    !(first = 0x01 && second = 0x00 && ((address.toList.take 8).drop 2).all (· = 0)) &&
    !(first = 0x20 && second = 0x01 && octet 2 = 0x0d && octet 3 = 0xb8) &&
    !(first = 0x20 && second = 0x01 && octet 2 = 0x00 && octet 3 = 0x02 &&
      octet 4 = 0 && octet 5 = 0)

/-- The policy of an intercepted packet: the action the trie holds for its
destination, else the mode. -/
def interceptAction (found : Option UInt8) (mode : UInt8) (isPublic fragmented : Bool) :
    XdpAction :=
  match found with
  | some action =>
    if action = policyActionRedirect then if fragmented then .drop else .redirect else .pass
  | none =>
    if mode = policyDirectPrefixes && isPublic then if fragmented then .drop else .redirect
    else .pass

def interceptActionV4 (maps : BpfMaps) (destination : Vector UInt8 4) (fragmented : Bool) :
    XdpAction :=
  interceptAction (maps.allowedV4.lookup destination) maps.interceptPolicyMode
    (isPublicV4 destination) fragmented

def interceptActionV6 (maps : BpfMaps) (destination : Vector UInt8 16) (fragmented : Bool) :
    XdpAction :=
  interceptAction (maps.allowedV6.lookup destination) maps.interceptPolicyMode
    (isPublicV6 destination) fragmented

/-- Where the extension headers end. -/
structure Ipv6Transport where
  offset : ℕ
  protocol : UInt8
  /-- `0`: whole, `1`: a first fragment, `2`: a later one. -/
  fragmented : ℕ
  remainingPayload : ℕ

/-- The loop over the extension headers; the first argument counts its rounds. -/
def ipv6TransportHeader (packet : Bytes) : ℕ → Ipv6Transport → Option Ipv6Transport
  | 0, _ => none
  | rounds + 1, here =>
    if here.protocol = Packet.ipProtocolHopByHop ∨ here.protocol = Packet.ipProtocolRouting ∨
        here.protocol = Packet.ipProtocolDestinationOptions then
      let headerLen := ((packet.byteAt (here.offset + 1)).toNat + 1) * 8
      if packet.length < here.offset + 2 ∨ here.remainingPayload < headerLen ∨
          packet.length < here.offset + headerLen then none
      else ipv6TransportHeader packet rounds
        { here with
          offset := here.offset + headerLen
          protocol := packet.byteAt here.offset
          remainingPayload := here.remainingPayload - headerLen }
    else if here.protocol = Packet.ipProtocolFragment then
      if here.remainingPayload < 8 ∨ packet.length < here.offset + 8 then none
      else
        let fragment := packet.wordAt (here.offset + 2)
        ipv6TransportHeader packet rounds
          { offset := here.offset + 8
            protocol := packet.byteAt here.offset
            fragmented :=
              if fragment &&& 0xfff8 ≠ 0 then 2
              else if fragment &&& 1 ≠ 0 then 1 else here.fragmented
            remainingPayload := here.remainingPayload - 8 }
    else if here.protocol = Packet.ipProtocolAh then
      let headerLen := ((packet.byteAt (here.offset + 1)).toNat + 2) * 4
      if packet.length < here.offset + 2 ∨ here.remainingPayload < headerLen ∨
          packet.length < here.offset + headerLen then none
      else ipv6TransportHeader packet rounds
        { here with
          offset := here.offset + headerLen
          protocol := packet.byteAt here.offset
          remainingPayload := here.remainingPayload - headerLen }
    else some here

/-- A UDP header that does not fit the packet or the `room` its IP header leaves. -/
def udpMalformed (packet : Bytes) (offset room : ℕ) : Bool :=
  packet.length < offset + 8 || (packet.wordAt (offset + 4)).toNat < 8 ||
    room < (packet.wordAt (offset + 4)).toNat

/-! ## IPv4 -/

namespace XdpFilter

/-- The fields of a checked IPv4 header that the tests read. -/
structure Ipv4Header where
  packet : Bytes
  ipLen : ℕ
  totalLen : ℕ

namespace Ipv4Header

variable (ip : Ipv4Header)

def protocol : UInt8 := ip.packet.byteAt 9
def source : Vector UInt8 4 := ip.packet.octetsAt 4 12
def destination : Vector UInt8 4 := ip.packet.octetsAt 4 16
def fragmented : Bool := ip.packet.wordAt 6 &&& 0x3fff ≠ 0
def nonInitialFragment : Bool := ip.packet.wordAt 6 &&& 0x1fff ≠ 0
def udpMalformed : Bool := NewProxy.udpMalformed ip.packet ip.ipLen (ip.totalLen - ip.ipLen)
def udpSource : UInt16 := ip.packet.wordAt ip.ipLen
def udpDestination : UInt16 := ip.packet.wordAt (ip.ipLen + 2)

end Ipv4Header

def parseIpv4 (packet : Bytes) : Option Ipv4Header :=
  let ipLen := ((packet.byteAt 0) &&& 0x0f).toNat * 4
  let totalLen := (packet.wordAt 2).toNat
  if packet.length < 20 ∨ packet.byteAt 0 >>> 4 ≠ 4 ∨ ipLen < 20 ∨ packet.length < ipLen ∨
      totalLen < ipLen ∨ packet.length < totalLen then none
  else some ⟨packet, ipLen, totalLen⟩

def tunnelV4 (maps : BpfMaps) (ip : Ipv4Header) : Option XdpVerdict :=
  if maps.hasTunnelRole && ip.protocol = Packet.ipProtocolUdp && maps.isTunnelV4 ip.destination then
    if ip.udpMalformed then some .parserDrop
    else if ip.udpDestination = maps.tunnelPort then some .redirectQueue
    else none
  else none

def dnsV4 (maps : BpfMaps) (ip : Ipv4Header) : Option XdpVerdict :=
  if maps.hasInterceptRole && maps.isDnsV4 ip.destination then
    if ip.protocol ≠ Packet.ipProtocolUdp then some .pass
    else if ip.nonInitialFragment then some .dnsFragmentDrop
    else if ip.udpMalformed then some .parserDrop
    else if ip.udpDestination = 53 then
      if ip.fragmented then some .dnsFragmentDrop else some .redirectQueue
    else some .pass
  else none

def dnsLocalV4 (maps : BpfMaps) (ip : Ipv4Header) : Option XdpVerdict :=
  if maps.hasInterceptRole && ip.protocol = Packet.ipProtocolUdp &&
      maps.isDnsLocalResponseV4 ip.source ip.destination then
    if ip.fragmented then some .dnsFragmentDrop
    else if ip.udpMalformed then some .parserDrop
    else if maps.isDnsLocalPort ip.udpSource ip.udpDestination then some .redirectQueue
    else none
  else none

def tunnelRestV4 (maps : BpfMaps) (ip : Ipv4Header) : Option XdpVerdict :=
  if maps.hasTunnelRole && maps.isTunnelV4 ip.destination then some .pass else none

def interceptV4 (maps : BpfMaps) (ip : Ipv4Header) : XdpVerdict :=
  if maps.hasInterceptRole then .act (interceptActionV4 maps ip.destination ip.fragmented)
  else .pass

def ipv4 (maps : BpfMaps) (packet : Bytes) : XdpVerdict :=
  match parseIpv4 packet with
  | none => .parserDrop
  | some ip =>
    (tunnelV4 maps ip).getD <| (dnsV4 maps ip).getD <| (dnsLocalV4 maps ip).getD <|
      (tunnelRestV4 maps ip).getD <| interceptV4 maps ip

/-! ## IPv6 -/

structure Ipv6Header where
  packet : Bytes
  transport : Ipv6Transport

namespace Ipv6Header

variable (ip6 : Ipv6Header)

def protocol : UInt8 := ip6.transport.protocol
def source : Vector UInt8 16 := ip6.packet.octetsAt 16 8
def destination : Vector UInt8 16 := ip6.packet.octetsAt 16 24
def fragmented : Bool := ip6.transport.fragmented ≠ 0
def nonInitialFragment : Bool := ip6.transport.fragmented = 2
def udpMalformed : Bool :=
  NewProxy.udpMalformed ip6.packet ip6.transport.offset ip6.transport.remainingPayload
def udpSource : UInt16 := ip6.packet.wordAt ip6.transport.offset
def udpDestination : UInt16 := ip6.packet.wordAt (ip6.transport.offset + 2)

end Ipv6Header

def parseIpv6 (packet : Bytes) : Option Ipv6Header :=
  let payloadLen := (packet.wordAt 4).toNat
  if packet.length < 40 ∨ packet.byteAt 0 >>> 4 ≠ 6 ∨ packet.length - 40 < payloadLen then none
  else
    (ipv6TransportHeader packet 8 ⟨40, packet.byteAt 6, 0, payloadLen⟩).map fun transport =>
      ⟨packet, transport⟩

/-- Unlike over IPv4, a fragment for the tunnel address is dropped. -/
def tunnelV6 (maps : BpfMaps) (ip6 : Ipv6Header) : Option XdpVerdict :=
  if maps.hasTunnelRole && ip6.protocol = Packet.ipProtocolUdp &&
      maps.isTunnelV6 ip6.destination then
    if ip6.fragmented then some .drop
    else if ip6.udpMalformed then some .parserDrop
    else if ip6.udpDestination = maps.tunnelPort then some .redirectQueue
    else none
  else none

def dnsV6 (maps : BpfMaps) (ip6 : Ipv6Header) : Option XdpVerdict :=
  if maps.hasInterceptRole && maps.isDnsV6 ip6.destination then
    if ip6.protocol ≠ Packet.ipProtocolUdp then some .pass
    else if ip6.nonInitialFragment then some .dnsFragmentDrop
    else if ip6.udpMalformed then some .parserDrop
    else if ip6.udpDestination = 53 then
      if ip6.fragmented then some .dnsFragmentDrop else some .redirectQueue
    else some .pass
  else none

/-- Unlike over IPv4, a fragment between these addresses is dropped whatever its
protocol is. -/
def dnsLocalV6 (maps : BpfMaps) (ip6 : Ipv6Header) : Option XdpVerdict :=
  if maps.hasInterceptRole && maps.isDnsLocalResponseV6 ip6.source ip6.destination then
    if ip6.fragmented then some .dnsFragmentDrop
    else if ip6.protocol = Packet.ipProtocolUdp then
      if ip6.udpMalformed then some .parserDrop
      else if maps.isDnsLocalPort ip6.udpSource ip6.udpDestination then some .redirectQueue
      else none
    else none
  else none

def tunnelRestV6 (maps : BpfMaps) (ip6 : Ipv6Header) : Option XdpVerdict :=
  if maps.hasTunnelRole && maps.isTunnelV6 ip6.destination then some .pass else none

def interceptV6 (maps : BpfMaps) (ip6 : Ipv6Header) : XdpVerdict :=
  if maps.hasInterceptRole then .act (interceptActionV6 maps ip6.destination ip6.fragmented)
  else .pass

def ipv6 (maps : BpfMaps) (packet : Bytes) : XdpVerdict :=
  match parseIpv6 packet with
  | none => .parserDrop
  | some ip6 =>
    (tunnelV6 maps ip6).getD <| (dnsV6 maps ip6).getD <| (dnsLocalV6 maps ip6).getD <|
      (tunnelRestV6 maps ip6).getD <| interceptV6 maps ip6

/-! ## The program -/

def verdict (maps : BpfMaps) (frame : Bytes) : XdpVerdict :=
  if maps.roleFlags = 0 then .pass
  else if frame.length < 14 then .parserDrop
  else if frame.wordAt 12 = 0x0800 then ipv4 maps (frame.drop 14)
  else if frame.wordAt 12 = 0x86dd then ipv6 maps (frame.drop 14)
  else .pass

end XdpFilter

def xdpFilterProg (maps : BpfMaps) (frame : Bytes) : XdpAction × BpfMaps :=
  (XdpFilter.verdict maps frame).settle maps

/-- An interface whose flags are zero is left to the kernel. -/
theorem xdpFilterProg_disabled {maps : BpfMaps} (h : maps.roleFlags = 0) (frame : Bytes) :
    xdpFilterProg maps frame = (.pass, maps) := by
  simp [xdpFilterProg, XdpFilter.verdict, h, XdpVerdict.settle]

end NewProxy
