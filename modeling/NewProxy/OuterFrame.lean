import NewProxy.ByteFields
import NewProxy.PacketEdit
import NewProxy.Policy
import NewProxy.Worker

/-!
# The frames an IO worker sends

A transmit is put behind an Ethernet header; one for the tunnel gets a new IP and UDP
header as well. The frame is written into a buffer that was used for earlier ones. The
checksums are summed over slices that need not lie next to each other: a slice may end
in the middle of a word, whose high byte then waits for the next one.
-/
namespace NewProxy

open Outcome Packet
open OnesComplement (wordSum finish)

namespace OuterFrame

structure IoLinkConfig where
  interface : InterfaceInfo
  tunnelNextHop : Option MacAddr
  interceptNextHop : Option MacAddr

/-- The words of a part; a byte that is left over is handed back. -/
def sumChunks (sum : ℕ) : Bytes → Outcome PacketError (ℕ × Option UInt8)
  | hi :: lo :: rest => do sumChunks (← addU32 sum (be16 hi lo).toNat) rest
  | [byte] => .ok (sum, some byte)
  | [] => .ok (sum, none)

/-- One part. A waiting byte is completed by the first byte of the part, if it has one. -/
def sumPart : ℕ × Option UInt8 → Bytes → Outcome PacketError (ℕ × Option UInt8)
  | (sum, none), part => sumChunks sum part
  | (sum, some high), [] => .ok (sum, some high)
  | (sum, some high), low :: rest => do sumChunks (← addU32 sum (be16 high low).toNat) rest

def checksumParts (parts : List Bytes) : Outcome PacketError UInt16 := do
  let (sum, highByte) ← parts.foldlM sumPart (0, none)
  let sum ← match highByte with
    | some high => addU32 sum (high.toNat * 256)
    | none => .ok sum
  return finish sum

def checksum (bytes : Bytes) : Outcome PacketError UInt16 := checksumParts [bytes]

/-- The UDP checksum that says there is none is sent as all ones. -/
def nonzero (checksum : UInt16) : UInt16 := if checksum = 0 then 0xffff else checksum

def transportChecksum (pseudo : Bytes) (protocol : UInt8) (transport : Bytes) :
    Outcome PacketError UInt16 := do
  let protocolAndLen := [0, protocol, .ofNat (transport.length / 256), .ofNat transport.length]
  return nonzero (← checksumParts [pseudo, protocolAndLen, transport])

/-- `packet[off..].copy_from_slice(bytes)`. -/
def putRest (off : ℕ) (bytes : Bytes) : Act Bytes PacketError Unit :=
  Act.update fun packet =>
    if packet.length = off + bytes.length then packet.write off bytes else Outcome.panic

/-- What is written before the payload, in order: the fields of both headers that are not
zero, without the checksums. -/
def ipv4UdpFields (source destination : Vector UInt8 4) (sourcePort destinationPort : UInt16)
    (udpLen : ℕ) : List (ℕ × Bytes) :=
  [(0, [0x45]),
    (2, be16Bytes (.ofNat (20 + udpLen))),
    (6, be16Bytes 0x4000),
    (8, [64]),
    (9, [17]),
    (12, source.toList),
    (16, destination.toList),
    (20, be16Bytes sourcePort),
    (22, be16Bytes destinationPort),
    (24, be16Bytes (.ofNat udpLen))]

def fillIpv4Udp (source destination : Vector UInt8 4) (sourcePort destinationPort : UInt16)
    (payload : Bytes) : Act Bytes PacketError Unit := do
  Bytes.putAll (ipv4UdpFields source destination sourcePort destinationPort (8 + payload.length))
  putRest 28 payload
  let packet ← Act.get
  let headerChecksum ← Act.call do checksum (← packet.range 0 20)
  Bytes.put 10 (be16Bytes headerChecksum)
  let packet ← Act.get
  let udpChecksum ← Act.call do
    transportChecksum (← packet.range 12 20) 17 (← packet.range 20 packet.length)
  Bytes.put 26 (be16Bytes udpChecksum)

def ipv6UdpFields (source destination : Vector UInt8 16) (sourcePort destinationPort : UInt16)
    (udpLen : ℕ) : List (ℕ × Bytes) :=
  [(0, [0x60]),
    (4, be16Bytes (.ofNat udpLen)),
    (6, [17]),
    (7, [64]),
    (8, source.toList),
    (24, destination.toList),
    (40, be16Bytes sourcePort),
    (42, be16Bytes destinationPort),
    (44, be16Bytes (.ofNat udpLen))]

def fillIpv6Udp (source destination : Vector UInt8 16) (sourcePort destinationPort : UInt16)
    (payload : Bytes) : Act Bytes PacketError Unit := do
  let udpLen := 8 + payload.length
  Bytes.putAll (ipv6UdpFields source destination sourcePort destinationPort udpLen)
  putRest 48 payload
  let packet ← Act.get
  let udpChecksum ← Act.call do
    checksumParts [← packet.range 8 40, be32Bytes udpLen, [0, 0, 0, 17],
      ← packet.range 40 packet.length]
  Bytes.put 46 (be16Bytes (nonzero udpChecksum))

/-- `false` when there is no source address of the destination's family. -/
def fillOuterPacket (interface : InterfaceInfo) (route : OuterRoute) (payload : Bytes) :
    Act Bytes PacketError Bool :=
  match route.destination.ip with
  | .v4 destination =>
    let source := match route.sourceIp with
      | some (.v4 source) => some source
      | none => interface.ipv4
      | some (.v6 _) => none
    match source with
    | none => return false
    | some source => do
      fillIpv4Udp source destination route.sourcePort route.destination.port payload
      return true
  | .v6 destination =>
    let source := match route.sourceIp with
      | some (.v6 source) => some source
      | none => interface.ipv6
      | some (.v4 _) => none
    match source with
    | none => return false
    | some source => do
      fillIpv6Udp source destination route.sourcePort route.destination.port payload
      return true

/-- Next hop, ether type and length of what follows the Ethernet header. -/
def frameHead (link : IoLinkConfig) (transmit : IoTransmit) : Option (MacAddr × UInt16 × ℕ) := do
  match transmit.outer with
  | some route =>
    let (etherType, headerLen) := if route.destination.ip.isV4 then (0x0800, 28) else (0x86dd, 48)
    return (← link.tunnelNextHop, etherType, headerLen + transmit.packet.length)
  | none =>
    let version := (← transmit.packet[0]?) >>> 4
    let etherType : UInt16 ←
      (if version = 4 then some 0x0800 else if version = 6 then some 0x86dd else none)
    return (← link.interceptNextHop, etherType, transmit.packet.length)

/-- A call on `&mut frame[14..]`. -/
def onPacket {α : Type} (x : Act Bytes PacketError α) : Act Bytes PacketError α :=
  Act.zoom (fun frame => frame.drop 14) (fun packet frame => frame.take 14 ++ packet) id x

def fillEthernetFrame (link : IoLinkConfig) (transmit : IoTransmit) :
    Act Bytes PacketError Bool := do
  match frameHead link transmit with
  | none => return false
  | some (nextHop, etherType, payloadLen) => do
    Act.modify fun _ => resize [] (14 + payloadLen)
    Bytes.putAll [(0, nextHop.toList), (6, link.interface.mac.toList), (12, be16Bytes etherType)]
    match transmit.outer with
    | some route => onPacket (fillOuterPacket link.interface route transmit.packet)
    | none => do
      putRest 14 transmit.packet
      return true

section Scattered

/-- What is still to be summed: the words so far and the waiting byte, followed by `rest`. -/
def total (state : ℕ × Option UInt8) (rest : Bytes) : ℕ :=
  state.1 + wordSum (state.2.toList ++ rest)

theorem sumChunks_ok (part rest : Bytes) (sum : ℕ) (h : sum + wordSum (part ++ rest) < 2 ^ 32) :
    ∃ state, sumChunks sum part = .ok state ∧ total state rest = sum + wordSum (part ++ rest) := by
  induction part using NewProxy.OnesComplement.wordSum.induct generalizing sum with
  | case1 hi lo part ih =>
    have hword : wordSum (hi :: lo :: part ++ rest) = (be16 hi lo).toNat + wordSum (part ++ rest) :=
      rfl
    rw [hword] at h ⊢
    obtain ⟨state, hrun, htotal⟩ := ih (sum + (be16 hi lo).toNat) (by omega)
    refine ⟨state, ?_, by omega⟩
    rw [sumChunks, addU32_ok (by omega), Outcome.bind_ok, hrun]
  | case2 byte => exact ⟨(sum, some byte), rfl, rfl⟩
  | case3 => exact ⟨(sum, none), rfl, rfl⟩

theorem sumPart_ok (state : ℕ × Option UInt8) (part rest : Bytes)
    (h : total state (part ++ rest) < 2 ^ 32) :
    ∃ state', sumPart state part = .ok state' ∧ total state' rest = total state (part ++ rest) := by
  obtain ⟨sum, high⟩ := state
  cases high with
  | none => exact sumChunks_ok part rest sum h
  | some high =>
    cases part with
    | nil => exact ⟨(sum, some high), rfl, rfl⟩
    | cons low part =>
      have hword : total (sum, some high) (low :: part ++ rest) =
          sum + ((be16 high low).toNat + wordSum (part ++ rest)) := rfl
      rw [hword] at h ⊢
      obtain ⟨state', hrun, htotal⟩ :=
        sumChunks_ok part rest (sum + (be16 high low).toNat) (by omega)
      refine ⟨state', ?_, by omega⟩
      rw [sumPart, addU32_ok (by omega), Outcome.bind_ok, hrun]

theorem foldlM_sumPart (parts : List Bytes) (state : ℕ × Option UInt8)
    (h : total state parts.flatten < 2 ^ 32) :
    ∃ state', parts.foldlM sumPart state = .ok state' ∧
      total state' [] = total state parts.flatten := by
  induction parts generalizing state with
  | nil => exact ⟨state, rfl, rfl⟩
  | cons part parts ih =>
    rw [List.flatten_cons] at h ⊢
    obtain ⟨next, hrun, hnext⟩ := sumPart_ok state part parts.flatten h
    obtain ⟨state', hrest, htotal⟩ := ih next (hnext ▸ h)
    refine ⟨state', ?_, htotal.trans hnext⟩
    rw [List.foldlM_cons, hrun, Outcome.bind_ok, hrest]

theorem checksumParts_eq {parts : List Bytes} (h : wordSum parts.flatten < 2 ^ 32) :
    checksumParts parts = .ok (finish (wordSum parts.flatten)) := by
  have hstart : total (0, none) parts.flatten = wordSum parts.flatten := Nat.zero_add _
  obtain ⟨⟨sum, high⟩, hrun, htotal⟩ := foldlM_sumPart parts (0, none) (hstart ▸ h)
  rw [hstart] at htotal
  rw [checksumParts, hrun, Outcome.bind_ok]
  cases high with
  | none =>
    have hsum : sum = wordSum parts.flatten := htotal
    rw [hsum]
    rfl
  | some high =>
    have hsum : sum + high.toNat * 256 = wordSum parts.flatten := htotal
    dsimp only
    rw [addU32_ok (by omega), Outcome.bind_ok, hsum]
    rfl

/-- The words of so many bytes fit into the accumulator. -/
theorem wordSum_lt {bytes : Bytes} (h : bytes.length ≤ 131070) : wordSum bytes < 2 ^ 32 := by
  have hle := OnesComplement.wordSum_le bytes
  omega

/-- However the bytes are split, their checksum is that of the whole; no sum overflows. -/
theorem checksumParts_flatten (parts : List Bytes)
    (h : (parts.map List.length).sum ≤ 131070) :
    ∃ w, checksumParts parts = .ok w ∧ checksumParts [parts.flatten] = .ok w ∧
      internetChecksum parts.flatten = .ok w := by
  rw [← List.length_flatten] at h
  have hlt := wordSum_lt h
  have hone : [parts.flatten].flatten = parts.flatten := by simp
  refine ⟨finish (wordSum parts.flatten), checksumParts_eq hlt, ?_, ?_⟩
  · rw [checksumParts_eq (by rw [hone]; exact hlt), hone]
  · rw [internetChecksum, checksumAdd_ok (by omega), Outcome.bind_ok, Nat.zero_add]
    rfl

theorem checksumParts_flatten_odd :
    ∃ w, checksumParts [[1], [], [2, 3], [4]] = .ok w ∧ internetChecksum [1, 2, 3, 4] = .ok w := by
  obtain ⟨w, hparts, -, hwhole⟩ := checksumParts_flatten [[1], [], [2, 3], [4]] (by decide)
  exact ⟨w, hparts, hwhole⟩

end Scattered

end OuterFrame

end NewProxy
