import NewProxy.HeaderWalks
import NewProxy.OuterFrame

/-!
# From an outgoing tunnel frame to a received one

The headers written around a payload are the ones the receiving side reads: its walk
over the frame finds the addresses and ports of the route and the payload, and its
checksum test, which sums contiguous bytes, accepts the sums made of scattered ones.
-/
namespace NewProxy.OuterFrame

open Outcome Packet
open OnesComplement (wordSum finish wordSum_append)
open Bytes (SameExcept Has FilledIn)

variable {p q payload : Bytes} {l : Layout} {f : FlowKey}

/-- The address of an interface in one of the families. -/
def ownAddress (interface : InterfaceInfo) : Bool → Option IpAddr
  | true => interface.ipv4.map .v4
  | false => interface.ipv6.map .v6

/-- `source` is the address a datagram on the route is sent from. -/
structure Uses (interface : InterfaceInfo) (route : OuterRoute) (source : IpAddr) : Prop where
  family : source.isV4 = route.destination.ip.isV4
  chosen : route.sourceIp = some source ∨
    route.sourceIp = none ∧ ownAddress interface source.isV4 = some source

/-- The layout of a datagram with `n` bytes of payload. -/
def layout (isV4 : Bool) (n : ℕ) : Layout :=
  ⟨isV4, ipProtocolUdp, if isV4 then 20 else 40, (if isV4 then 28 else 48) + n⟩

/-- A UDP packet of the flow `f` that is all header and payload, with good checksums. -/
structure Datagram (p : Bytes) (l : Layout) (f : FlowKey) (payload : Bytes) : Prop where
  carries : Carries p l f
  checked : Checked p l
  length : p.length = l.total
  payload : p.slice (l.offset + 8) l.total = payload
  nonzero : p.wordAt (l.offset + 6) ≠ 0

/-- The computed checksum is all such a packet needs. -/
theorem datagram_withChecksum {source destination : IpAddr} {sourcePort destinationPort : UInt16}
    (h : Carries q l ⟨source, destination, sourcePort, destinationPort, .udp⟩)
    (hlen : q.length = l.total) (hpayload : q.slice (l.offset + 8) l.total = payload)
    (hheader : l.isV4 = true → q.wordAt 10 = headerChecksum q l) :
    Datagram (withChecksum q l .udp (Packet.transportChecksum q l .udp)) l
      ⟨source, destination, sourcePort, destinationPort, .udp⟩ payload := by
  have hplaced : Placed q l .udp := h.placed
  have hpos := hplaced.layout.length_pos
  have hfields := hplaced.fields_le
  have hsame := withChecksum_same hplaced (Packet.transportChecksum q l .udp)
  have hword : (withChecksum q l .udp (Packet.transportChecksum q l .udp)).wordAt (l.offset + 6) =
      Packet.transportChecksum q l .udp := Bytes.wordAt_patch _ (by omega)
  have haway : ∀ i, i < l.offset → ¬ l.TransportSum .udp i := by
    intro i hi hsum
    have hlo := hsum.1
    omega
  have hcarries := h.keep hsame fun i hi => hplaced.layout.not_transportSum hi
  have hsum := transportChecksum_congr hplaced (hsame.mono fun i hi => .inr hi)
  have hrewritten : Rewritten (withChecksum q l .udp (Packet.transportChecksum q l .udp))
      (withChecksum q l .udp (Packet.transportChecksum q l .udp)) l
      ⟨source, destination, sourcePort, destinationPort, .udp⟩ := by
    refine ⟨.refl _ _, hcarries.source, hcarries.destination, hcarries.sourcePort,
      hcarries.destinationPort, fun hv => ?_, fun _ hno => hno, fun _ => ?_⟩
    · rw [headerChecksum_congr hplaced.layout hsame fun i hi hsum => absurd hsum (haway i hi),
        hsame.wordAt (haway 10 (by omega)) (haway 11 (by omega))]
      exact hheader hv
    · exact hword.trans hsum.symm
  refine ⟨hcarries, hrewritten.checked hcarries.placed, hsame.length.trans hlen, ?_, ?_⟩
  · rw [← hpayload]
    refine hsame.slice hlen.ge fun i hi _ hsum => ?_
    have hhi : i < l.offset + 6 + 2 := hsum.2
    omega
  · exact fun hzero => transportChecksum_ne_zero hplaced.protocol (hword.symm.trans hzero)

section Checksums

theorem wordSum_protocolAndLen (protocol : UInt8) {n : ℕ} (h : n < 65536) :
    wordSum [0, protocol, .ofNat (n / 256), .ofNat n] = protocol.toNat + n := by
  have hhi : (UInt8.ofNat (n / 256)).toNat = n / 256 := by
    rw [UInt8.toNat_ofNat', Nat.mod_eq_of_lt (by omega)]
  have hlo : (UInt8.ofNat n).toNat = n % 256 := UInt8.toNat_ofNat'
  simp only [wordSum, be16_toNat, hhi, hlo, UInt8.toNat_zero]
  omega

theorem encodeUdpZeroChecksum_eq (checksum : UInt16) :
    encodeUdpZeroChecksum ipProtocolUdp checksum = nonzero checksum := by
  simp [encodeUdpZeroChecksum, nonzero]

/-- With its field still zero, the scattered sum is the receiver's. -/
theorem transportChecksum_ipv4 (h : Placed q l .udp) (hv : l.isV4 = true)
    (hlen : q.length = l.total) (hzero : q.wordAt (l.offset + 6) = 0) :
    transportChecksum (q.slice 12 20) 17 (q.slice l.offset q.length) =
      .ok (Packet.transportChecksum q l .udp) := by
  have hpos := h.layout.length_pos
  have hle := h.layout.offset_le
  have hbound := h.layout.total_bound
  have hword := (q.wordAt 2).toNat_lt
  have htotal := (h.layout.ipv4 hv).2.2.1
  have hfields := h.fields_le
  have hsum := h.layout.sums_bound
  have hpseudo : (q.slice 12 20).length = 8 := Bytes.length_slice (by omega)
  have htransport : (q.slice l.offset q.length).length = l.total - l.offset := by
    rw [Bytes.length_slice le_rfl, hlen]
  have hself : withChecksum q l .udp 0 = q := by
    rw [withChecksum, ← hzero]
    exact Bytes.patch_wordAt (by omega)
  have hflat : wordSum [q.slice 12 20, [0, 17, .ofNat ((l.total - l.offset) / 256),
      .ofNat (l.total - l.offset)], q.slice l.offset q.length].flatten =
        pseudoSum q l + wordSum (q.slice l.offset l.total) := by
    rw [List.flatten_cons, List.flatten_cons, List.flatten_cons, List.flatten_nil, List.append_nil,
      wordSum_append (by rw [hpseudo]), wordSum_append (by simp),
      wordSum_protocolAndLen 17 (by omega), pseudoSum, if_pos hv,
      if_neg (by rw [h.protocol]; decide), h.protocol, hlen]
    have hproto : TransportProtocol.udp.number.toNat = (17 : UInt8).toNat := by decide
    omega
  have hlt : pseudoSum q l + wordSum (q.slice l.offset l.total) < 2 ^ 32 := by
    rw [pseudoSum, if_pos hv, if_neg (by rw [h.protocol]; decide), h.protocol]
    have hproto : TransportProtocol.udp.number.toNat = 17 := by decide
    omega
  rw [transportChecksum, htransport, checksumParts_eq (by rw [hflat]; exact hlt), hflat,
    Outcome.bind_ok, Packet.transportChecksum, hself, h.protocol]
  exact congrArg Except.ok (encodeUdpZeroChecksum_eq _).symm

theorem transportChecksum_ipv6 (h : Placed q l .udp) (hv : l.isV4 = false)
    (hlen : q.length = l.total) (hzero : q.wordAt (l.offset + 6) = 0) :
    ∃ w, checksumParts [q.slice 8 40, be32Bytes (l.total - l.offset), [0, 0, 0, 17],
        q.slice l.offset q.length] = .ok w ∧ nonzero w = Packet.transportChecksum q l .udp := by
  have hpos := h.layout.length_pos.2 hv
  have hle := h.layout.offset_le
  have hfields := h.fields_le
  have hsum := h.layout.sums_bound
  have hpseudo : (q.slice 8 40).length = 32 := Bytes.length_slice (by omega)
  have hself : withChecksum q l .udp 0 = q := by
    rw [withChecksum, ← hzero]
    exact Bytes.patch_wordAt (by omega)
  have hflat : wordSum [q.slice 8 40, be32Bytes (l.total - l.offset), [0, 0, 0, 17],
      q.slice l.offset q.length].flatten = pseudoSum q l + wordSum (q.slice l.offset l.total) := by
    rw [List.flatten_cons, List.flatten_cons, List.flatten_cons, List.flatten_cons,
      List.flatten_nil, List.append_nil, wordSum_append (by rw [hpseudo]),
      wordSum_append (by simp [be32Bytes]), wordSum_append (by simp), pseudoSum, hv,
      if_neg Bool.false_ne_true, h.protocol, hlen]
    have hproto : TransportProtocol.udp.number = 17 := rfl
    rw [hproto]
    omega
  have hlt : pseudoSum q l + wordSum (q.slice l.offset l.total) < 2 ^ 32 := by
    have hlength := OnesComplement.wordSum_le (be32Bytes (l.total - l.offset))
    have hproto := OnesComplement.wordSum_le [0, 0, 0, l.protocol]
    simp only [be32Bytes, List.length_cons, List.length_nil] at hlength hproto
    rw [pseudoSum, hv, if_neg Bool.false_ne_true, be32Bytes]
    omega
  refine ⟨_, checksumParts_eq (by rw [hflat]; exact hlt), ?_⟩
  rw [hflat, Packet.transportChecksum, hself, h.protocol]
  exact (encodeUdpZeroChecksum_eq _).symm

end Checksums

section Filling

theorem run_putRest {off : ℕ} (h : q.length = off + payload.length) :
    (putRest off payload).run q = (.ok (), q.patch off payload) := by
  refine Act.update_of_ok ?_
  rw [if_pos h]
  exact Bytes.write_ok h.ge

/-- What the fields written so far spell. -/
theorem carries_ipv4 {source destination : Vector UInt8 4} {sourcePort destinationPort : UInt16}
    {fields : List (ℕ × Bytes)} (hshort : payload.length ≤ 65507)
    (hlen : p.length = 28 + payload.length) (h : FilledIn fields p q)
    (hfields : ∀ field ∈ ipv4UdpFields source destination sourcePort destinationPort
      (8 + payload.length), field ∈ fields) :
    Carries q (layout true payload.length)
      ⟨.v4 source, .v4 destination, sourcePort, destinationPort, .udp⟩ := by
  have hhas := fun field hmem => h.has field (hfields field hmem)
  simp only [ipv4UdpFields, List.forall_mem_cons] at hhas
  obtain ⟨h0, h2, h6, -, h9, h12, h16, h20, h22, h24, -⟩ := hhas
  have htotal : (UInt16.ofNat (20 + (8 + payload.length))).toNat = 28 + payload.length := by
    rw [UInt16.toNat_ofNat', Nat.mod_eq_of_lt (by omega)]
    omega
  have hudp : (UInt16.ofNat (8 + payload.length)).toNat = 8 + payload.length := by
    rw [UInt16.toNat_ofNat', Nat.mod_eq_of_lt (by omega)]
  have hlength := h.length
  refine ⟨⟨?_, ?_, ?_, fun _ => ⟨le_rfl, ?_, ?_, ?_, h9.byteAt⟩, fun hv => by cases hv⟩, rfl,
    ⟨?_, ?_⟩, trivial, ?_, ?_, h20.wordAt, h22.wordAt⟩
  · rw [h0.byteAt]
    rfl
  · simp only [layout, if_true]
    omega
  · simp only [layout, if_true]
    omega
  · rw [h0.byteAt]
    rfl
  · rw [h2.wordAt, htotal]
    rfl
  · rw [h6.wordAt]
    rfl
  · simp only [layout, if_true]
    omega
  · simp only [layout, if_true]
    rw [h24.wordAt, hudp]
    omega
  · exact congrArg IpAddr.v4 h12.octetsAt
  · exact congrArg IpAddr.v4 h16.octetsAt

theorem wordAt_zero (hzero : ∀ i, p.byteAt i = 0) (k : ℕ) : p.wordAt k = 0 := by
  rw [Bytes.wordAt, hzero, hzero]
  rfl

/-- The IPv4 header and what follows it, written over zeros. -/
theorem fillIpv4Udp_run (source destination : Vector UInt8 4) (sourcePort destinationPort : UInt16)
    (hshort : payload.length ≤ 65507) (hlen : p.length = 28 + payload.length)
    (hzero : ∀ i, p.byteAt i = 0) :
    ∃ q, (fillIpv4Udp source destination sourcePort destinationPort payload).run p = (.ok (), q) ∧
      Datagram q (layout true payload.length)
        ⟨.v4 source, .v4 destination, sourcePort, destinationPort, .udp⟩ payload := by
  obtain ⟨q₀, hrun₀, hq₀⟩ := Bytes.run_putAll (ε := PacketError) (p := p)
    (ipv4UdpFields source destination sourcePort destinationPort (8 + payload.length))
    (by simp [ipv4UdpFields]; omega) (by simp [ipv4UdpFields])
  have hq₁ := hq₀.patch 28 payload (by omega) (by simp [ipv4UdpFields])
  generalize hput : q₀.patch 28 payload = q₁ at hq₁
  -- the checksum is taken while its field is still zero
  have hlen₁ := hq₁.length
  have hten : q₁.wordAt 10 = 0 :=
    (hq₁.wordAt (by simp [ipv4UdpFields])).trans (wordAt_zero hzero 10)
  have hself : q₁.patch 10 [0, 0] = q₁ := by
    have hsame : q₁.patch 10 (be16Bytes (q₁.wordAt 10)) = q₁ := Bytes.patch_wordAt (by omega)
    rwa [hten] at hsame
  generalize hw : headerChecksum q₁ (layout true payload.length) = w
  have hheader : checksum (q₁.slice 0 20) = .ok w := by
    have hshort' : [q₁.slice 0 20].flatten.length ≤ 131070 := by
      simp only [List.flatten_cons, List.flatten_nil, List.append_nil]
      rw [Bytes.length_slice (by omega)]
      omega
    rw [checksum, checksumParts_eq (wordSum_lt hshort'), ← hw, headerChecksum, hself]
    simp [layout]
  have hq₂ := hq₁.patch 10 (be16Bytes w) (by simp; omega) (by simp [ipv4UdpFields])
  have hpatch : (q₁.patch 10 (be16Bytes w)).patch 10 [0, 0] = q₁ := by
    rw [Bytes.patch_patch (by simp; omega) (by simp), hself]
  generalize hput₂ : q₁.patch 10 (be16Bytes w) = q₂ at hq₂ hpatch
  have hlen₂ := hq₂.length
  have hcarries : Carries q₂ (layout true payload.length)
      ⟨.v4 source, .v4 destination, sourcePort, destinationPort, .udp⟩ :=
    carries_ipv4 hshort hlen hq₂ fun field hmem =>
      List.mem_append_left _ (List.mem_append_left _ hmem)
  have hzero₂ : q₂.wordAt 26 = 0 :=
    (hq₂.wordAt (by simp [ipv4UdpFields])).trans (wordAt_zero hzero 26)
  have htotal : q₂.length = 28 + payload.length := hlen₂.trans hlen
  have hword : q₂.wordAt 10 = w := (hq₂.has (10, be16Bytes w) (by simp)).wordAt
  have hpayload : q₂.slice 28 (28 + payload.length) = payload :=
    (hq₂.has (28, payload) (by simp)).slice htotal.ge
  have hsum := transportChecksum_ipv4 hcarries.placed rfl htotal hzero₂
  refine ⟨_, ?_, datagram_withChecksum hcarries htotal hpayload fun _ => ?_⟩
  · have hcall : (q₁.range 0 20 >>= checksum) = .ok w := by
      rw [Bytes.range_ok (by omega) (by omega), Outcome.bind_ok, hheader]
    have hcall₂ : (q₂.range 12 20 >>= fun pseudo => q₂.range 20 q₂.length >>=
        transportChecksum pseudo 17) =
          .ok (Packet.transportChecksum q₂ (layout true payload.length) .udp) := by
      rw [Bytes.range_ok (by omega) (by omega), Outcome.bind_ok, Bytes.range_ok (by omega) le_rfl,
        Outcome.bind_ok]
      exact hsum
    rw [fillIpv4Udp, Act.bind_of_ok hrun₀, Act.bind_of_ok (run_putRest (by rw [hq₀.length]; omega)),
      hput, Act.bind_of_ok (Act.run_get q₁), hcall, Act.bind_of_ok (Act.run_call _ _),
      Act.bind_of_ok (Bytes.run_put (by simp; omega)), hput₂, Act.bind_of_ok (Act.run_get q₂),
      hcall₂, Act.bind_of_ok (Act.run_call _ _)]
    exact Bytes.run_put (by simp; omega)
  · rw [hword, ← hw, headerChecksum, headerChecksum, hself, hpatch]

theorem carries_ipv6 {source destination : Vector UInt8 16} {sourcePort destinationPort : UInt16}
    {fields : List (ℕ × Bytes)} (hshort : payload.length ≤ 65527)
    (hlen : p.length = 48 + payload.length) (h : FilledIn fields p q)
    (hfields : ∀ field ∈ ipv6UdpFields source destination sourcePort destinationPort
      (8 + payload.length), field ∈ fields) :
    Carries q (layout false payload.length)
      ⟨.v6 source, .v6 destination, sourcePort, destinationPort, .udp⟩ := by
  have hhas := fun field hmem => h.has field (hfields field hmem)
  simp only [ipv6UdpFields, List.forall_mem_cons] at hhas
  obtain ⟨h0, h4, h6, -, h8, h24, h40, h42, h44, -⟩ := hhas
  have hudp : (UInt16.ofNat (8 + payload.length)).toNat = 8 + payload.length := by
    rw [UInt16.toNat_ofNat', Nat.mod_eq_of_lt (by omega)]
  have hlength := h.length
  refine ⟨⟨?_, ?_, ?_, (fun hv => by cases hv), fun _ => ⟨le_rfl, ?_, ?_⟩⟩, rfl, ⟨?_, ?_⟩, trivial,
    ?_, ?_, h40.wordAt, h42.wordAt⟩
  · rw [h0.byteAt]
    rfl
  · simp only [layout, Bool.false_eq_true, if_false]
    omega
  · simp only [layout, Bool.false_eq_true, if_false]
    omega
  · rw [h4.wordAt, hudp]
    simp only [layout, Bool.false_eq_true, if_false]
    omega
  · rw [h6.byteAt]
    rfl
  · simp only [layout, Bool.false_eq_true, if_false]
    omega
  · simp only [layout, Bool.false_eq_true, if_false]
    rw [h44.wordAt, hudp]
    omega
  · exact congrArg IpAddr.v6 h8.octetsAt
  · exact congrArg IpAddr.v6 h24.octetsAt

theorem fillIpv6Udp_run (source destination : Vector UInt8 16) (sourcePort destinationPort : UInt16)
    (hshort : payload.length ≤ 65527) (hlen : p.length = 48 + payload.length)
    (hzero : ∀ i, p.byteAt i = 0) :
    ∃ q, (fillIpv6Udp source destination sourcePort destinationPort payload).run p = (.ok (), q) ∧
      Datagram q (layout false payload.length)
        ⟨.v6 source, .v6 destination, sourcePort, destinationPort, .udp⟩ payload := by
  obtain ⟨q₀, hrun₀, hq₀⟩ := Bytes.run_putAll (ε := PacketError) (p := p)
    (ipv6UdpFields source destination sourcePort destinationPort (8 + payload.length))
    (by simp [ipv6UdpFields]; omega) (by simp [ipv6UdpFields])
  have hq₁ := hq₀.patch 48 payload (by omega) (by simp [ipv6UdpFields])
  generalize hput : q₀.patch 48 payload = q₁ at hq₁
  have hcarries : Carries q₁ (layout false payload.length)
      ⟨.v6 source, .v6 destination, sourcePort, destinationPort, .udp⟩ :=
    carries_ipv6 hshort hlen hq₁ fun field hmem => List.mem_append_left _ hmem
  have hzero₁ : q₁.wordAt 46 = 0 :=
    (hq₁.wordAt (by simp [ipv6UdpFields])).trans (wordAt_zero hzero 46)
  have htotal : q₁.length = 48 + payload.length := hq₁.length.trans hlen
  have hpayload : q₁.slice 48 (48 + payload.length) = payload :=
    (hq₁.has (48, payload) (by simp)).slice htotal.ge
  obtain ⟨w, hsum, hw⟩ := transportChecksum_ipv6 hcarries.placed rfl htotal hzero₁
  have hudpLen : (layout false payload.length).total - (layout false payload.length).offset =
      8 + payload.length := by
    simp only [layout, Bool.false_eq_true, if_false]
    omega
  rw [hudpLen] at hsum
  refine ⟨_, ?_, datagram_withChecksum hcarries htotal hpayload fun hv => by cases hv⟩
  have hcall : (q₁.range 8 40 >>= fun pseudo => q₁.range 40 q₁.length >>= fun transport =>
      checksumParts [pseudo, be32Bytes (8 + payload.length), [0, 0, 0, 17], transport]) =
        .ok w := by
    rw [Bytes.range_ok (by omega) (by omega), Outcome.bind_ok, Bytes.range_ok (by omega) le_rfl,
      Outcome.bind_ok]
    exact hsum
  rw [fillIpv6Udp, Act.bind_of_ok hrun₀, Act.bind_of_ok (run_putRest (by rw [hq₀.length]; omega)),
    hput, Act.bind_of_ok (Act.run_get q₁), hcall, Act.bind_of_ok (Act.run_call _ _), hw]
  exact Bytes.run_put (by simp; omega)

end Filling

section Frame

variable {interface : InterfaceInfo} {route : OuterRoute} {source : IpAddr}

/-- The flow of a datagram on the route. -/
def outerFlow (route : OuterRoute) (source : IpAddr) : FlowKey :=
  ⟨source, route.destination.ip, route.sourcePort, route.destination.port, .udp⟩

theorem fillOuterPacket_run (h : Uses interface route source)
    (hshort : payload.length ≤ if route.destination.ip.isV4 then 65507 else 65527)
    (hlen : p.length = (if route.destination.ip.isV4 then 28 else 48) + payload.length)
    (hzero : ∀ i, p.byteAt i = 0) :
    ∃ q, (fillOuterPacket interface route payload).run p = (.ok true, q) ∧
      Datagram q (layout route.destination.ip.isV4 payload.length) (outerFlow route source)
        payload := by
  have hfamily := h.family
  have hchosen := h.chosen
  rw [fillOuterPacket, outerFlow]
  cases hip : route.destination.ip with
  | v4 destination =>
    rw [hip] at hfamily hshort hlen
    obtain ⟨octets, rfl⟩ := IpAddr.eq_v4 hfamily
    obtain ⟨q, hrun, hq⟩ := fillIpv4Udp_run octets destination route.sourcePort
      route.destination.port hshort hlen hzero
    refine ⟨q, ?_, hq⟩
    rcases hchosen with hsome | ⟨hnone, haddress⟩
    · simp only [hsome]
      rw [Act.bind_of_ok hrun]
      rfl
    · obtain ⟨_, hipv4, heq⟩ := Option.map_eq_some_iff.mp haddress
      cases heq
      simp only [hnone, hipv4]
      rw [Act.bind_of_ok hrun]
      rfl
  | v6 destination =>
    rw [hip] at hfamily hshort hlen
    obtain ⟨octets, rfl⟩ := IpAddr.eq_v6 hfamily
    obtain ⟨q, hrun, hq⟩ := fillIpv6Udp_run octets destination route.sourcePort
      route.destination.port hshort hlen hzero
    refine ⟨q, ?_, hq⟩
    rcases hchosen with hsome | ⟨hnone, haddress⟩
    · simp only [hsome]
      rw [Act.bind_of_ok hrun]
      rfl
    · obtain ⟨_, hipv6, heq⟩ := Option.map_eq_some_iff.mp haddress
      cases heq
      simp only [hnone, hipv6]
      rw [Act.bind_of_ok hrun]
      rfl

/-- The frame does not depend on what the buffer held. -/
theorem fillEthernetFrame_run {link : IoLinkConfig} {nextHop : MacAddr}
    (hhop : link.tunnelNextHop = some nextHop) (h : Uses link.interface route source)
    (hshort : payload.length ≤ if route.destination.ip.isV4 then 65507 else 65527)
    (target : IoOwnerKey) (buffer : Bytes) :
    ∃ ethernet p, (fillEthernetFrame link ⟨target, payload, some route⟩).run buffer =
        (.ok true, ethernet ++ p) ∧
      IoWorker.Announces (layout route.destination.ip.isV4 payload.length) ethernet ∧
      Datagram p (layout route.destination.ip.isV4 payload.length) (outerFlow route source)
        payload := by
  generalize hetherType : (if route.destination.ip.isV4 then IoWorker.ethPIpv4 else
    IoWorker.ethPIpv6) = etherType
  generalize hheader : (if route.destination.ip.isV4 then 28 else 48) = headerLen
  have hhead : frameHead link ⟨target, payload, some route⟩ =
      some (nextHop, etherType, headerLen + payload.length) := by
    simp only [frameHead, hhop, ← hetherType, ← hheader]
    cases route.destination.ip.isV4 <;> rfl
  have hbuffer : resize [] (14 + (headerLen + payload.length)) =
      List.replicate (14 + (headerLen + payload.length)) 0 := by
    simp [resize]
  obtain ⟨q, hrun, hq⟩ := Bytes.run_putAll (ε := PacketError)
    (p := List.replicate (14 + (headerLen + payload.length)) 0)
    [(0, nextHop.toList), (6, link.interface.mac.toList), (12, be16Bytes etherType)]
    (by simp; omega) (by simp)
  have hlength : q.length = 14 + (headerLen + payload.length) := by
    rw [hq.length, List.length_replicate]
  have hdrop : ∀ i, Bytes.byteAt (q.drop 14) i = 0 := by
    intro i
    have hbyte : Bytes.byteAt (q.drop 14) i = q.byteAt (14 + i) := by
      rw [Bytes.byteAt, List.getElem?_drop, Bytes.byteAt]
    rw [hbyte, hq.rest (14 + i) (by simp; omega), Bytes.byteAt, List.getElem?_replicate]
    split_ifs <;> rfl
  obtain ⟨p, hfill, hp⟩ := fillOuterPacket_run (p := q.drop 14) h hshort
    (by rw [hheader, List.length_drop]; omega) hdrop
  refine ⟨q.take 14, p, ?_, ⟨?_, ?_⟩, hp⟩
  · rw [fillEthernetFrame, hhead]
    dsimp only
    rw [Act.bind_of_ok (Act.run_modify _ _), hbuffer, Act.bind_of_ok hrun]
    simp [onPacket, Act.zoom, hfill]
  · rw [List.length_take, hlength]
    exact Nat.min_eq_left (Nat.le_add_right _ _)
  · have hword := (hq.has (12, be16Bytes etherType) (by simp)).wordAt
    have htake : Bytes.wordAt (q.take 14) 12 = q.wordAt 12 := by
      simp [Bytes.wordAt, Bytes.byteAt]
    rw [htake, hword, ← hetherType]
    rfl

end Frame

section Received

variable {source destination : IpAddr} {sourcePort destinationPort : UInt16}

/-- A UDP header. -/
def udpHeader (sourcePort destinationPort udpLen checksum : UInt16) : Bytes :=
  be16Bytes sourcePort ++ be16Bytes destinationPort ++ be16Bytes udpLen ++ be16Bytes checksum

theorem word_udpHeader (sourcePort destinationPort udpLen checksum : UInt16) :
    (udpHeader sourcePort destinationPort udpLen checksum).word 0 =
        (.ok sourcePort : Outcome IoWorker.DropReason UInt16) ∧
      (udpHeader sourcePort destinationPort udpLen checksum).word 2 =
        (.ok destinationPort : Outcome IoWorker.DropReason UInt16) ∧
      (udpHeader sourcePort destinationPort udpLen checksum).word 4 =
        (.ok udpLen : Outcome IoWorker.DropReason UInt16) :=
  ⟨congrArg Except.ok (be16_div_mod sourcePort), congrArg Except.ok (be16_div_mod destinationPort),
    congrArg Except.ok (be16_div_mod udpLen)⟩

/-- The transport part of a datagram, byte for byte. -/
theorem Datagram.transport
    (h : Datagram p l ⟨source, destination, sourcePort, destinationPort, .udp⟩ payload) :
    p.slice l.offset l.total = udpHeader sourcePort destinationPort (.ofNat (8 + payload.length))
      (p.wordAt (l.offset + 6)) ++ payload := by
  have hshape : l.offset + 8 ≤ l.total ∧ l.offset + (p.wordAt (l.offset + 4)).toNat = l.total :=
    h.carries.shape
  have hlen := h.length
  have hpayload : payload.length = l.total - (l.offset + 8) := by
    rw [← h.payload, Bytes.length_slice hlen.ge]
  have hudpLen : p.wordAt (l.offset + 4) = .ofNat (8 + payload.length) := by
    have hnat : 8 + payload.length = (p.wordAt (l.offset + 4)).toNat := by omega
    rw [hnat, UInt16.ofNat_toNat]
  have hsource : p.wordAt l.offset = sourcePort := h.carries.sourcePort
  have hdestination : p.wordAt (l.offset + 2) = destinationPort := h.carries.destinationPort
  rw [udpHeader, ← hsource, ← hdestination, ← hudpLen, ← Bytes.slice_word l.offset (by omega),
    ← Bytes.slice_word (l.offset + 2) (by omega), ← Bytes.slice_word (l.offset + 4) (by omega),
    ← Bytes.slice_word (l.offset + 6) (by omega), ← h.payload]
  rw [Bytes.slice_append_slice (by omega) (by omega),
    Bytes.slice_append_slice (by omega) (by omega),
    Bytes.slice_append_slice (by omega) (by omega), Bytes.slice_append_slice (by omega) hshape.1]

/-- What an IO worker reads off it. -/
theorem Datagram.parseOuterQuic
    (h : Datagram p l ⟨source, destination, sourcePort, destinationPort, .udp⟩ payload)
    {fixedLen : ℕ} {dcid : Bytes} {bootstrap : Bool}
    (hdcid : IoWorker.parseQuicDcid payload fixedLen = .ok (dcid, bootstrap)) :
    IoWorker.parseOuterQuic (IoWorker.framed p l) destinationPort fixedLen =
      .ok (some ⟨dcid, ⟨source, sourcePort⟩, destination, payload, bootstrap⟩) := by
  have hlen := h.length
  have hle := h.carries.layout.offset_le
  have hbound := h.carries.layout.total_bound
  have hproto : l.protocol = ipProtocolUdp := h.carries.protocol
  have hshape : l.offset + 8 ≤ l.total ∧ l.offset + (p.wordAt (l.offset + 4)).toNat = l.total :=
    h.carries.shape
  have hpayload : payload.length = l.total - (l.offset + 8) := by
    rw [← h.payload, Bytes.length_slice hlen.ge]
  have hself : p.slice 0 l.total = p := by
    rw [Bytes.slice, ← hlen, List.take_length, List.drop_zero]
  have hudp : p.getRange l.offset p.length = some (p.slice l.offset l.total) := by
    rw [Bytes.getRange_some (by omega) le_rfl, hlen]
  have hudpLen : (UInt16.ofNat (8 + payload.length)).toNat = 8 + payload.length := by
    rw [UInt16.toNat_ofNat', Nat.mod_eq_of_lt]
    have hword := (p.wordAt (l.offset + 4)).toNat_lt
    omega
  rw [h.transport] at hudp
  generalize hheader : udpHeader sourcePort destinationPort (.ofNat (8 + payload.length))
    (p.wordAt (l.offset + 6)) = header at hudp
  obtain ⟨h0, h2, h4⟩ := word_udpHeader sourcePort destinationPort (.ofNat (8 + payload.length))
    (p.wordAt (l.offset + 6))
  have height : header.length = 8 := by rw [← hheader]; rfl
  have hfront : Bytes.getRange (header ++ payload) 0 8 = some header := by
    rw [Bytes.getRange_some (Nat.zero_le 8) (by rw [List.length_append]; omega), Bytes.slice,
      List.drop_zero, ← height, List.take_left]
  have hback : Bytes.getRange (header ++ payload) 8 (8 + payload.length) = some payload := by
    rw [Bytes.getRange_some (by omega) (by rw [List.length_append]; omega), Bytes.slice, ← height,
      ← List.length_append, List.take_length, List.drop_left]
  rw [hheader] at h0 h2 h4
  simp only [IoWorker.parseOuterQuic, IoWorker.framed, hself, hproto, hudp, okOr, Outcome.bind_ok,
    hfront, h0, h2, h4, hudpLen, hback, hdcid, ne_eq, not_true_eq_false, if_false]
  exact congrArg Except.ok (by rw [h.carries.source, h.carries.destination])

end Received

/-- What is put on the wire for a route is read back by the receiver, whatever the buffer
held before. -/
theorem outer_round_trip (link : IoLinkConfig) (route : OuterRoute) (source : IpAddr)
    (nextHop : MacAddr) (payload : Bytes) (target : IoOwnerKey) (buffer : Bytes)
    (hhop : link.tunnelNextHop = some nextHop) (hsource : Uses link.interface route source)
    (hshort : payload.length ≤ if route.destination.ip.isV4 then 65507 else 65527) :
    ∃ frame parsed checksum,
      (fillEthernetFrame link ⟨target, payload, some route⟩).run buffer = (.ok true, frame) ∧
      IoWorker.parseIpFrame frame = .ok parsed ∧
      parsed.protocol = ipProtocolUdp ∧ parsed.fragmented = false ∧
      parsed.source = source ∧ parsed.destination = route.destination.ip ∧
      parsed.ipPacket.slice parsed.transportOffset parsed.ipPacket.length =
        udpHeader route.sourcePort route.destination.port (.ofNat (8 + payload.length)) checksum ++
          payload ∧
      checksum ≠ 0 ∧
      parseFlowKey parsed.ipPacket = .ok ⟨source, route.destination.ip, route.sourcePort,
        route.destination.port, .udp⟩ ∧
      validatePacketChecksums parsed.ipPacket = .ok () ∧
      ∀ fixedLen dcid bootstrap, IoWorker.parseQuicDcid payload fixedLen = .ok (dcid, bootstrap) →
        IoWorker.parseOuterQuic parsed route.destination.port fixedLen =
          .ok (some ⟨dcid, ⟨source, route.sourcePort⟩, route.destination.ip, payload,
            bootstrap⟩) := by
  obtain ⟨ethernet, p, hrun, hannounces, hp⟩ :=
    fillEthernetFrame_run hhop hsource hshort target buffer
  generalize hl : layout route.destination.ip.isV4 payload.length = l at hannounces hp
  have hself : (IoWorker.framed p l).ipPacket = p := by
    rw [IoWorker.framed, Bytes.slice, ← hp.length, List.take_length, List.drop_zero]
  refine ⟨_, _, p.wordAt (l.offset + 6), hrun,
    IoWorker.parseIpFrame_eq hp.carries.layout hannounces, hp.carries.protocol, rfl,
    hp.carries.source, hp.carries.destination, ?_, hp.nonzero, ?_, ?_, ?_⟩
  · rw [hself, hp.length]
    exact hp.transport
  · rw [hself]
    exact parseFlowKey_eq_ok.mpr ⟨l, hp.carries⟩
  · rw [hself]
    exact (validatePacketChecksums_eq_ok hp.carries).mpr hp.checked
  · intro fixedLen dcid bootstrap hdcid
    exact hp.parseOuterQuic hdcid

def sampleLink : IoLinkConfig :=
  ⟨⟨⟨"eth0"⟩, 2, 1, #v[2, 0, 0, 0, 0, 1], [.v4 (dotted 192 0 2 1)], some (dotted 192 0 2 1), none⟩,
    some #v[2, 0, 0, 0, 0, 2], none⟩

def sampleRoute : OuterRoute := ⟨none, 4433, ⟨.v4 (dotted 198 51 100 7), 4434⟩⟩

/-- A short-header packet on the way from the interface's own address. -/
theorem outer_round_trip_short :
    ∃ frame parsed, (fillEthernetFrame sampleLink
        ⟨⟨1, 0⟩, [0x40, 1, 2, 3, 4, 5, 6, 7, 8, 9], some sampleRoute⟩).run [7, 7, 7] =
          (.ok true, frame) ∧
      IoWorker.parseIpFrame frame = .ok parsed ∧
      IoWorker.parseOuterQuic parsed 4434 8 = .ok (some ⟨[1, 2, 3, 4, 5, 6, 7, 8],
        ⟨.v4 #v[192, 0, 2, 1], 4433⟩, .v4 #v[198, 51, 100, 7],
        [0x40, 1, 2, 3, 4, 5, 6, 7, 8, 9], false⟩) := by
  obtain ⟨frame, parsed, -, hrun, hparse, -, -, -, -, -, -, -, -, hquic⟩ :=
    outer_round_trip sampleLink sampleRoute (.v4 #v[192, 0, 2, 1]) #v[2, 0, 0, 0, 0, 2]
      [0x40, 1, 2, 3, 4, 5, 6, 7, 8, 9] ⟨1, 0⟩ [7, 7, 7] rfl ⟨rfl, .inr ⟨rfl, rfl⟩⟩ (by decide)
  exact ⟨frame, parsed, hrun, hparse, hquic 8 [1, 2, 3, 4, 5, 6, 7, 8] false rfl⟩

end NewProxy.OuterFrame
