import NewProxy.OnesComplement

/-!
# IP packets: flow keys, checksums and in-place edits

The packet functions of the flow plane. A packet is a byte string that may be
longer than the IP packet it starts with. Reads behind an explicit length check
are panicking reads, as in the source; edits that can fail between two writes
are computations on the packet.
-/
namespace NewProxy

inductive TransportProtocol where
  | tcp
  | udp
  | icmp
  | icmpv6
  deriving DecidableEq

inductive IpAddr where
  | v4 (octets : Vector UInt8 4)
  | v6 (octets : Vector UInt8 16)
  deriving DecidableEq

/-- The octets `a.b.c.d`. -/
def dotted (a b c d : UInt8) : Vector UInt8 4 := #v[a, b, c, d]

def IpAddr.isV4 : IpAddr → Bool
  | .v4 _ => true
  | .v6 _ => false

structure FlowKey where
  source : IpAddr
  destination : IpAddr
  sourcePort : UInt16
  destinationPort : UInt16
  protocol : TransportProtocol
  deriving DecidableEq

def FlowKey.reverse (flow : FlowKey) : FlowKey where
  source := flow.destination
  destination := flow.source
  sourcePort := flow.destinationPort
  destinationPort := flow.sourcePort
  protocol := flow.protocol

inductive PacketError where
  | truncatedIpHeader
  | invalidIpLength
  | truncatedTransportHeader
  | unsupportedIpVersion (version : UInt8)
  | unsupportedProtocol (protocol : UInt8)
  | unsupportedIcmpType (messageType : UInt8)
  | nonInitialFragment
  | extensionHeaderChainTooLong
  | invalidTranslation
  | invalidIpChecksum
  | invalidTransportChecksum
  | hopLimitExceeded
  deriving DecidableEq

namespace Packet

open Outcome (ensure okOr fail)

abbrev ipProtocolIcmp : UInt8 := 1
abbrev ipProtocolTcp : UInt8 := 6
abbrev ipProtocolUdp : UInt8 := 17
abbrev ipProtocolRouting : UInt8 := 43
abbrev ipProtocolFragment : UInt8 := 44
abbrev ipProtocolEsp : UInt8 := 50
abbrev ipProtocolAh : UInt8 := 51
abbrev ipProtocolIcmpv6 : UInt8 := 58
abbrev ipProtocolNoNextHeader : UInt8 := 59
abbrev ipProtocolDestinationOptions : UInt8 := 60
abbrev ipProtocolHopByHop : UInt8 := 0

def tcpMaxSafeMss : UInt16 := 1333

/-- The version nibble of the first byte. -/
def ipVersion (packet : Bytes) : Outcome PacketError UInt8 := do
  let first ← okOr packet[0]? .truncatedIpHeader
  return first >>> 4

/-- Header and total length of an IPv4 packet: the checks that open every reader
of one. -/
def ipv4Lengths (packet : Bytes) : Outcome PacketError (ℕ × ℕ) := do
  ensure (20 ≤ packet.length) .truncatedIpHeader
  let headerLen := ((← packet.index 0) &&& 0x0f).toNat * 4
  ensure (20 ≤ headerLen ∧ headerLen ≤ packet.length) .truncatedIpHeader
  let totalLen := (← packet.word 2).toNat
  ensure (headerLen ≤ totalLen ∧ totalLen ≤ packet.length) .invalidIpLength
  return (headerLen, totalLen)

/-- Total length and first next-header of an IPv6 packet, likewise. -/
def ipv6Lengths (packet : Bytes) : Outcome PacketError (ℕ × UInt8) := do
  ensure (40 ≤ packet.length) .truncatedIpHeader
  let totalLen := 40 + (← packet.word 4).toNat
  ensure (totalLen ≤ packet.length) .invalidIpLength
  return (totalLen, ← packet.index 6)

/-- Walks the extension headers to the transport header. The first argument is
the number of headers still allowed. -/
def ipv6TransportOffset (packet : Bytes) (totalLen : ℕ) :
    ℕ → UInt8 → ℕ → Outcome PacketError (UInt8 × ℕ)
  | 0, _, _ => fail .extensionHeaderChainTooLong
  | rounds + 1, nextHeader, offset =>
    if nextHeader = ipProtocolHopByHop ∨ nextHeader = ipProtocolRouting ∨
        nextHeader = ipProtocolDestinationOptions then do
      let header ← okOr (packet.getRange offset (offset + 2)) .truncatedTransportHeader
      let headerLen := ((header.byteAt 1).toNat + 1) * 8
      ensure (offset + headerLen ≤ totalLen) .truncatedTransportHeader
      ipv6TransportOffset packet totalLen rounds (header.byteAt 0) (offset + headerLen)
    else if nextHeader = ipProtocolFragment then do
      let _ ← okOr (packet.getRange offset (offset + 8)) .truncatedTransportHeader
      fail .nonInitialFragment
    else if nextHeader = ipProtocolAh then do
      let header ← okOr (packet.getRange offset (offset + 2)) .truncatedTransportHeader
      let headerLen := ((header.byteAt 1).toNat + 2) * 4
      ensure (offset + headerLen ≤ totalLen) .truncatedTransportHeader
      ipv6TransportOffset packet totalLen rounds (header.byteAt 0) (offset + headerLen)
    else if nextHeader = ipProtocolEsp ∨ nextHeader = ipProtocolNoNextHeader then
      fail (.unsupportedProtocol nextHeader)
    else .ok (nextHeader, offset)

/-- The same walk, written for the fragment question alone: a fragment header
ends it with `true`, anything that is not walked over with `false`. -/
def ipv6HasFragmentHeader (packet : Bytes) (totalLen : ℕ) :
    ℕ → UInt8 → ℕ → Outcome PacketError Bool
  | 0, _, _ => fail .extensionHeaderChainTooLong
  | rounds + 1, nextHeader, offset =>
    if nextHeader = ipProtocolHopByHop ∨ nextHeader = ipProtocolRouting ∨
        nextHeader = ipProtocolDestinationOptions then do
      let header ← okOr (packet.getRange offset (offset + 2)) .truncatedTransportHeader
      let headerLen := ((header.byteAt 1).toNat + 1) * 8
      ensure (offset + headerLen ≤ totalLen) .truncatedTransportHeader
      ipv6HasFragmentHeader packet totalLen rounds (header.byteAt 0) (offset + headerLen)
    else if nextHeader = ipProtocolFragment then .ok true
    else if nextHeader = ipProtocolAh then do
      let header ← okOr (packet.getRange offset (offset + 2)) .truncatedTransportHeader
      let headerLen := ((header.byteAt 1).toNat + 2) * 4
      ensure (offset + headerLen ≤ totalLen) .truncatedTransportHeader
      ipv6HasFragmentHeader packet totalLen rounds (header.byteAt 0) (offset + headerLen)
    else .ok false

def ipPacketIsFragmented (packet : Bytes) : Outcome PacketError Bool := do
  let version ← ipVersion packet
  if version = 4 then do
    let _ ← ipv4Lengths packet
    let fragment ← packet.word 6
    return fragment &&& 0x3fff != 0
  else if version = 6 then do
    let (totalLen, nextHeader) ← ipv6Lengths packet
    ipv6HasFragmentHeader packet totalLen 8 nextHeader 40
  else fail (.unsupportedIpVersion version)

/-- Protocol number, transport offset and total length. -/
def transportMetadata (packet : Bytes) : Outcome PacketError (UInt8 × ℕ × ℕ) := do
  let version ← ipVersion packet
  if version = 4 then do
    let (headerLen, totalLen) ← ipv4Lengths packet
    return (← packet.index 9, headerLen, totalLen)
  else if version = 6 then do
    let (totalLen, nextHeader) ← ipv6Lengths packet
    let (protocol, transportOffset) ← ipv6TransportOffset packet totalLen 8 nextHeader 40
    return (protocol, transportOffset, totalLen)
  else fail (.unsupportedIpVersion version)

def buildFlowKey (source destination : IpAddr) (protocol : UInt8) (transport : Bytes) :
    Outcome PacketError FlowKey :=
  if protocol = ipProtocolTcp then do
    let header ← okOr (transport.getRange 0 20) .truncatedTransportHeader
    let headerLen := (header.byteAt 12 >>> 4).toNat * 4
    ensure (20 ≤ headerLen ∧ headerLen ≤ transport.length) .truncatedTransportHeader
    return ⟨source, destination, header.wordAt 0, header.wordAt 2, .tcp⟩
  else if protocol = ipProtocolUdp then do
    let ports ← okOr (transport.getRange 0 8) .truncatedTransportHeader
    let udpLen := (ports.wordAt 4).toNat
    ensure (8 ≤ udpLen ∧ udpLen = transport.length) .invalidIpLength
    return ⟨source, destination, ports.wordAt 0, ports.wordAt 2, .udp⟩
  else if protocol = ipProtocolIcmp ∨ protocol = ipProtocolIcmpv6 then do
    let icmp ← okOr (transport.getRange 0 8) .truncatedTransportHeader
    let messageType := icmp.byteAt 0
    let supported :=
      if protocol = ipProtocolIcmp then messageType = 0 ∨ messageType = 8
      else messageType = 128 ∨ messageType = 129
    ensure (supported ∧ icmp.byteAt 1 = 0) (.unsupportedIcmpType messageType)
    return ⟨source, destination, icmp.wordAt 4, icmp.wordAt 0,
      if protocol = ipProtocolIcmp then .icmp else .icmpv6⟩
  else fail (.unsupportedProtocol protocol)

def parseIpv4FlowKey (packet : Bytes) : Outcome PacketError FlowKey := do
  let (headerLen, totalLen) ← ipv4Lengths packet
  let fragment ← packet.word 6
  ensure (fragment &&& 0x3fff = 0) .nonInitialFragment
  let protocol ← packet.index 9
  let transport ← packet.range headerLen totalLen
  buildFlowKey (.v4 (packet.octetsAt 4 12)) (.v4 (packet.octetsAt 4 16)) protocol transport

def parseIpv6FlowKey (packet : Bytes) : Outcome PacketError FlowKey := do
  let (totalLen, nextHeader) ← ipv6Lengths packet
  let (protocol, transportOffset) ← ipv6TransportOffset packet totalLen 8 nextHeader 40
  let transport ← packet.range transportOffset totalLen
  buildFlowKey (.v6 (packet.octetsAt 16 8)) (.v6 (packet.octetsAt 16 24)) protocol transport

def parseFlowKey (packet : Bytes) : Outcome PacketError FlowKey := do
  let version ← ipVersion packet
  if version = 4 then parseIpv4FlowKey packet
  else if version = 6 then parseIpv6FlowKey packet
  else fail (.unsupportedIpVersion version)

/-- The length field of a UDP header that ends exactly with the IP packet. -/
def validateUdpLayout (packet : Bytes) (transportOffset totalLen : ℕ) : Outcome PacketError ℕ := do
  let header ← okOr (packet.getRange transportOffset (transportOffset + 8))
    .truncatedTransportHeader
  let udpLen := (header.wordAt 4).toNat
  ensure (8 ≤ udpLen) .invalidIpLength
  ensure (transportOffset + udpLen = totalLen) .invalidIpLength
  ensure (totalLen ≤ packet.length) .invalidIpLength
  return udpLen

def udpPayloadRange (packet : Bytes) : Outcome PacketError (ℕ × ℕ) := do
  let (protocol, transportOffset, totalLen) ← transportMetadata packet
  ensure (protocol = ipProtocolUdp) (.unsupportedProtocol protocol)
  let udpLen ← validateUdpLayout packet transportOffset totalLen
  return (transportOffset + 8, transportOffset + udpLen)

def udpPayload (packet : Bytes) : Outcome PacketError Bytes := do
  let (start, stop) ← udpPayloadRange packet
  packet.range start stop

def parseTcpFlags (packet : Bytes) : Outcome PacketError (Option UInt8) := do
  let (protocol, transportOffset, totalLen) ← transportMetadata packet
  if protocol ≠ ipProtocolTcp then return none
  else do
    let header ← okOr (packet.getRange transportOffset (transportOffset + 20))
      .truncatedTransportHeader
    let headerLen := (header.byteAt 12 >>> 4).toNat * 4
    ensure (20 ≤ headerLen ∧ transportOffset + headerLen ≤ totalLen) .truncatedTransportHeader
    return some (header.byteAt 13)

/-- The option walk of `clampTcpMss`; it stops at the end-of-options kind and at
the first option that does not fit. -/
def clampMssOptions (maxMss : UInt16) (optEnd : ℕ) (packet : Bytes) (optOffset : ℕ)
    (modified : Bool) : Outcome PacketError (Bool × Bytes) :=
  if _hlt : optOffset < optEnd then do
    let kind ← packet.index optOffset
    if kind = 0 then return (modified, packet)
    else if kind = 1 then clampMssOptions maxMss optEnd packet (optOffset + 1) modified
    else if optEnd ≤ optOffset + 1 then return (modified, packet)
    else do
      let len := (← packet.index (optOffset + 1)).toNat
      if _hlen : len < 2 ∨ optEnd < optOffset + len then return (modified, packet)
      else if kind = 2 ∧ len = 4 then do
        let currentMss ← packet.word (optOffset + 2)
        if maxMss < currentMss then do
          let packet ← packet.write (optOffset + 2) (be16Bytes maxMss)
          clampMssOptions maxMss optEnd packet (optOffset + len) true
        else clampMssOptions maxMss optEnd packet (optOffset + len) modified
      else clampMssOptions maxMss optEnd packet (optOffset + len) modified
  else return (modified, packet)
termination_by optEnd - optOffset
decreasing_by all_goals omega

def clampTcpMss (packet : Bytes) (maxMss : UInt16) : Outcome PacketError (Bool × Bytes) := do
  let (protocol, transportOffset, totalLen) ← transportMetadata packet
  if protocol ≠ ipProtocolTcp then return (false, packet)
  else do
    let header ← okOr (packet.getRange transportOffset (transportOffset + 20))
      .truncatedTransportHeader
    if header.byteAt 13 &&& 0x02 = 0 then return (false, packet)
    else do
      let headerLen := (header.byteAt 12 >>> 4).toNat * 4
      ensure (20 ≤ headerLen ∧ transportOffset + headerLen ≤ totalLen) .truncatedTransportHeader
      clampMssOptions maxMss (transportOffset + headerLen) packet (transportOffset + 20) false

def resize (packet : Bytes) (length : ℕ) : Bytes :=
  packet.take length ++ List.replicate (length - packet.length) 0

def ensureUdpPayloadLen (packet : Bytes) (minimum : ℕ) : Outcome PacketError Bytes := do
  let (protocol, transportOffset, totalLen) ← transportMetadata packet
  ensure (protocol = ipProtocolUdp) (.unsupportedProtocol protocol)
  let udpLen ← validateUdpLayout packet transportOffset totalLen
  let payloadLen := udpLen - 8
  if minimum ≤ payloadLen then return packet
  else do
    let missing := minimum - payloadLen
    ensure (udpLen + missing < 65536) .invalidIpLength
    let packet := resize packet (totalLen + missing)
    let packet ← packet.write (transportOffset + 4) (be16Bytes (.ofNat (udpLen + missing)))
    let version := (← packet.index 0) >>> 4
    if version = 4 then do
      ensure (totalLen + missing < 65536) .invalidIpLength
      packet.write 2 (be16Bytes (.ofNat (totalLen + missing)))
    else if version = 6 then do
      ensure (40 ≤ totalLen ∧ totalLen - 40 + missing < 65536) .invalidIpLength
      packet.write 4 (be16Bytes (.ofNat (totalLen - 40 + missing)))
    else fail (.unsupportedIpVersion version)

/-- An addition to a `u32` accumulator; one that overflows panics. -/
def addU32 (a b : ℕ) : Outcome PacketError ℕ :=
  if a + b < 2 ^ 32 then .ok (a + b) else Outcome.panic

def checksumAdd (sum : ℕ) : Bytes → Outcome PacketError ℕ
  | hi :: lo :: rest => do checksumAdd (← addU32 sum (be16 hi lo).toNat) rest
  | [byte] => addU32 sum (byte.toNat * 256)
  | [] => .ok sum

def checksumFinish (sum : ℕ) : UInt16 := OnesComplement.finish sum

def internetChecksum (bytes : Bytes) : Outcome PacketError UInt16 := do
  return checksumFinish (← checksumAdd 0 bytes)

def checksumOffset (protocol : UInt8) : Outcome PacketError ℕ :=
  if protocol = ipProtocolTcp then .ok 16
  else if protocol = ipProtocolUdp then .ok 6
  else if protocol = ipProtocolIcmp ∨ protocol = ipProtocolIcmpv6 then .ok 2
  else fail (.unsupportedProtocol protocol)

def encodeUdpZeroChecksum (protocol : UInt8) (checksum : UInt16) : UInt16 :=
  if protocol = ipProtocolUdp ∧ checksum = 0 then 0xffff else checksum

/-- `u32::to_be_bytes`. -/
def be32Bytes (n : ℕ) : Bytes :=
  [.ofNat (n / 16777216), .ofNat (n / 65536), .ofNat (n / 256), .ofNat n]

/-- Sum of the IPv4 pseudo-header and the transport bytes. -/
def transportSumIpv4 (packet : Bytes) (transportOffset totalLen : ℕ) (protocol : UInt8) :
    Outcome PacketError ℕ := do
  let sum ← checksumAdd 0 (← packet.range 12 20)
  let sum ← addU32 sum protocol.toNat
  let sum ← addU32 sum (totalLen - transportOffset)
  checksumAdd sum (← packet.range transportOffset totalLen)

/-- Sum of the IPv6 pseudo-header and the transport bytes. -/
def transportSumIpv6 (packet : Bytes) (transportOffset totalLen : ℕ) (protocol : UInt8) :
    Outcome PacketError ℕ := do
  let sum ← checksumAdd 0 (← packet.range 8 40)
  let sum ← checksumAdd sum (be32Bytes (totalLen - transportOffset))
  let sum ← checksumAdd sum [0, 0, 0, protocol]
  checksumAdd sum (← packet.range transportOffset totalLen)

/-- The UDP part of `validatePacketChecksums`. -/
def checkUdpLayout (packet : Bytes) (protocol : UInt8) (transportOffset totalLen : ℕ) :
    Outcome PacketError Unit :=
  if protocol = ipProtocolUdp then do
    let _ ← validateUdpLayout packet transportOffset totalLen
    return ()
  else .ok ()

/-- A checksum field at `off` that lies inside the packet and is zero. -/
def zeroWord (packet : Bytes) (off : ℕ) : Bool := packet.getRange off (off + 2) = some [0, 0]

def validatePacketChecksums (packet : Bytes) : Outcome PacketError Unit := do
  let (protocol, transportOffset, totalLen) ← transportMetadata packet
  checkUdpLayout packet protocol transportOffset totalLen
  let version := (← packet.index 0) >>> 4
  if version = 4 then do
    let checksum ← internetChecksum (← packet.range 0 transportOffset)
    ensure (checksum = 0) .invalidIpChecksum
    if protocol = ipProtocolUdp ∧ zeroWord packet (transportOffset + 6) then return ()
    else if protocol = ipProtocolIcmp then do
      let checksum ← internetChecksum (← packet.range transportOffset totalLen)
      ensure (checksum = 0) .invalidTransportChecksum
    else do
      let sum ← transportSumIpv4 packet transportOffset totalLen protocol
      ensure (checksumFinish sum = 0) .invalidTransportChecksum
  else if version = 6 then do
    let checksumOff ← checksumOffset protocol
    ensure (¬ (protocol = ipProtocolUdp ∧ zeroWord packet (transportOffset + checksumOff)))
      .invalidTransportChecksum
    let sum ← transportSumIpv6 packet transportOffset totalLen protocol
    ensure (checksumFinish sum = 0) .invalidTransportChecksum
  else fail (.unsupportedIpVersion version)

def prepareForwardedPacket (packet : Bytes) : Outcome PacketError Bytes := do
  let fragmented ← ipPacketIsFragmented packet
  ensure (fragmented = false) .nonInitialFragment
  validatePacketChecksums packet
  let version ← ipVersion packet
  if version = 4 then do
    let headerLen := ((← packet.index 0) &&& 0x0f).toNat * 4
    ensure (20 ≤ headerLen ∧ headerLen ≤ packet.length) .truncatedIpHeader
    let timeToLive ← packet.index 8
    ensure (1 < timeToLive) .hopLimitExceeded
    let packet ← packet.write 8 [timeToLive - 1]
    let packet ← packet.write 10 [0, 0]
    let checksum ← internetChecksum (← packet.range 0 headerLen)
    packet.write 10 (be16Bytes checksum)
  else if version = 6 then do
    ensure (40 ≤ packet.length) .truncatedIpHeader
    let hopLimit ← packet.index 7
    ensure (1 < hopLimit) .hopLimitExceeded
    packet.write 7 [hopLimit - 1]
  else fail (.unsupportedIpVersion version)

/-- Works on `packet[start..stop]` in place. -/
def rewriteTransportFields (start stop : ℕ) (translated : FlowKey) :
    Act Bytes PacketError Unit := do
  let packet ← Act.get
  let transport ← Act.call (packet.range start stop)
  match translated.protocol with
  | .tcp | .udp => do
    let _ ← Act.call (okOr (transport.getRange 0 4) .truncatedTransportHeader)
    Bytes.put start (be16Bytes translated.sourcePort)
    Bytes.put (start + 2) (be16Bytes translated.destinationPort)
  | .icmp | .icmpv6 => do
    let _ ← Act.call (okOr (transport.getRange 0 8) .truncatedTransportHeader)
    Bytes.put start (be16Bytes translated.destinationPort)
    Bytes.put (start + 4) (be16Bytes translated.sourcePort)

def writeTransportChecksumIpv4 (transportOffset totalLen : ℕ) (protocol : UInt8) :
    Act Bytes PacketError Unit := do
  let checksumOff ← Act.call (checksumOffset protocol)
  Bytes.put (transportOffset + checksumOff) [0, 0]
  let packet ← Act.get
  if protocol = ipProtocolIcmp then do
    let transport ← Act.call (packet.range transportOffset totalLen)
    let checksum ← Act.call (internetChecksum transport)
    Bytes.put (transportOffset + checksumOff) (be16Bytes checksum)
  else do
    let sum ← Act.call (transportSumIpv4 packet transportOffset totalLen protocol)
    let checksum := encodeUdpZeroChecksum protocol (checksumFinish sum)
    Bytes.put (transportOffset + checksumOff) (be16Bytes checksum)

def writeTransportChecksumIpv6 (transportOffset totalLen : ℕ) (protocol : UInt8) :
    Act Bytes PacketError Unit := do
  let checksumOff ← Act.call (checksumOffset protocol)
  Bytes.put (transportOffset + checksumOff) [0, 0]
  let packet ← Act.get
  let sum ← Act.call (transportSumIpv6 packet transportOffset totalLen protocol)
  let checksum := encodeUdpZeroChecksum protocol (checksumFinish sum)
  Bytes.put (transportOffset + checksumOff) (be16Bytes checksum)

def rewriteIpv4Packet (source destination : Vector UInt8 4) (translated : FlowKey) :
    Act Bytes PacketError Unit := do
  let packet ← Act.get
  let headerLen := ((← Act.call (packet.index 0)) &&& 0x0f).toNat * 4
  let totalLen := (← Act.call (packet.word 2)).toNat
  Bytes.put 12 source.toList
  Bytes.put 16 destination.toList
  rewriteTransportFields headerLen totalLen translated
  Bytes.put 10 [0, 0]
  let packet ← Act.get
  let header ← Act.call (packet.range 0 headerLen)
  let checksum ← Act.call (internetChecksum header)
  Bytes.put 10 (be16Bytes checksum)
  let packet ← Act.get
  let protocol ← Act.call (packet.index 9)
  if protocol = ipProtocolUdp ∧ zeroWord packet (headerLen + 6) then return ()
  else writeTransportChecksumIpv4 headerLen totalLen protocol

def rewriteIpv6Packet (source destination : Vector UInt8 16) (translated : FlowKey) :
    Act Bytes PacketError Unit := do
  let packet ← Act.get
  let totalLen := 40 + (← Act.call (packet.word 4)).toNat
  let nextHeader ← Act.call (packet.index 6)
  let (protocol, transportOffset) ←
    Act.call (ipv6TransportOffset packet totalLen 8 nextHeader 40)
  Bytes.put 8 source.toList
  Bytes.put 24 destination.toList
  rewriteTransportFields transportOffset totalLen translated
  writeTransportChecksumIpv6 transportOffset totalLen protocol

def rewritePacket (translated : FlowKey) : Act Bytes PacketError Unit := do
  let packet ← Act.get
  let original ← Act.call (parseFlowKey packet)
  if original.protocol ≠ translated.protocol then Act.fail .invalidTranslation
  else match original.source, original.destination, translated.source, translated.destination with
    | .v4 _, .v4 _, .v4 source, .v4 destination => rewriteIpv4Packet source destination translated
    | .v6 _, .v6 _, .v6 source, .v6 destination => rewriteIpv6Packet source destination translated
    | _, _, _, _ => Act.fail .invalidTranslation

end Packet

end NewProxy
