import NewProxy.Packet

/-!
# The layout a parsed packet has

`Layout` says where the transport part of an unfragmented packet lies, and
`Carries` what flow key its bytes spell there. Both only mention bytes at fixed
positions, so that an edit that leaves those bytes alone visibly keeps them.
The readers of the packet module are characterised by them once: a packet
parses to a flow exactly when it carries it.
-/
namespace NewProxy

theorem IpAddr.eq_v4 {a : IpAddr} (h : a.isV4 = true) : ∃ octets, a = .v4 octets := by
  cases a with
  | v4 octets => exact ⟨octets, rfl⟩
  | v6 octets => cases h

theorem IpAddr.eq_v6 {a : IpAddr} (h : a.isV4 = false) : ∃ octets, a = .v6 octets := by
  cases a with
  | v4 octets => cases h
  | v6 octets => exact ⟨octets, rfl⟩

namespace TransportProtocol

/-- The protocol number on the wire. -/
def number : TransportProtocol → UInt8
  | tcp => Packet.ipProtocolTcp
  | udp => Packet.ipProtocolUdp
  | icmp => Packet.ipProtocolIcmp
  | icmpv6 => Packet.ipProtocolIcmpv6

/-- Where the transport header has the word a flow key reads as source port. -/
def sourceField : TransportProtocol → ℕ
  | tcp | udp => 0
  | icmp | icmpv6 => 4

/-- Where it has the word read as destination port; for echo messages that is
the type and code. -/
def destinationField : TransportProtocol → ℕ
  | tcp | udp => 2
  | icmp | icmpv6 => 0

def checksumField : TransportProtocol → ℕ
  | tcp => 16
  | udp => 6
  | icmp | icmpv6 => 2

/-- Echo identifiers are kept apart from the message type. -/
def isEcho : TransportProtocol → Bool
  | tcp | udp => false
  | icmp | icmpv6 => true

/-- The words that may stand in the destination field. -/
def Allows : TransportProtocol → UInt16 → Prop
  | tcp, _ | udp, _ => True
  | icmp, w => w = 0 ∨ w = 0x0800
  | icmpv6, w => w = 0x8000 ∨ w = 0x8100

theorem number_inj {a b : TransportProtocol} (h : a.number = b.number) : a = b := by
  cases a <;> cases b <;> first | rfl | (exact absurd h (by decide))

end TransportProtocol

namespace Packet

open Outcome (ensure okOr fail)

/-- Where the parts of an unfragmented packet lie. -/
structure Layout where
  isV4 : Bool
  protocol : UInt8
  offset : ℕ
  total : ℕ

namespace Layout

def source (l : Layout) (p : Bytes) : IpAddr :=
  if l.isV4 then .v4 (p.octetsAt 4 12) else .v6 (p.octetsAt 16 8)

def destination (l : Layout) (p : Bytes) : IpAddr :=
  if l.isV4 then .v4 (p.octetsAt 4 16) else .v6 (p.octetsAt 16 24)

/-- `l` is the layout of `p`. -/
structure Of (l : Layout) (p : Bytes) : Prop where
  version : p.byteAt 0 >>> 4 = if l.isV4 then 4 else 6
  offset_le : l.offset ≤ l.total
  total_le : l.total ≤ p.length
  ipv4 : l.isV4 = true → 20 ≤ l.offset ∧ (p.byteAt 0 &&& 0x0f).toNat * 4 = l.offset ∧
    (p.wordAt 2).toNat = l.total ∧ p.wordAt 6 &&& 0x3fff = 0 ∧ p.byteAt 9 = l.protocol
  ipv6 : l.isV4 = false → 40 ≤ l.offset ∧ 40 + (p.wordAt 4).toNat = l.total ∧
    ipv6TransportOffset p l.total 8 (p.byteAt 6) 40 = .ok (l.protocol, l.offset)

end Layout

/-- The length conditions on a transport header of each protocol, for the
transport bytes from `off` up to `stop`. -/
def Shape (p : Bytes) (off stop : ℕ) : TransportProtocol → Prop
  | .tcp => off + 20 ≤ stop ∧ 20 ≤ (p.byteAt (off + 12) >>> 4).toNat * 4 ∧
      off + (p.byteAt (off + 12) >>> 4).toNat * 4 ≤ stop
  | .udp => off + 8 ≤ stop ∧ off + (p.wordAt (off + 4)).toNat = stop
  | .icmp | .icmpv6 => off + 8 ≤ stop

/-- `p` has the layout `l` and its bytes spell the flow key `f`. -/
structure Carries (p : Bytes) (l : Layout) (f : FlowKey) : Prop where
  layout : l.Of p
  protocol : l.protocol = f.protocol.number
  shape : Shape p l.offset l.total f.protocol
  allowed : f.protocol.Allows f.destinationPort
  source : l.source p = f.source
  destination : l.destination p = f.destination
  sourcePort : p.wordAt (l.offset + f.protocol.sourceField) = f.sourcePort
  destinationPort : p.wordAt (l.offset + f.protocol.destinationField) = f.destinationPort

/-- `p` has the layout `l` and a transport header of the protocol in its place,
whatever its address and port fields spell. -/
structure Placed (p : Bytes) (l : Layout) (proto : TransportProtocol) : Prop where
  layout : l.Of p
  protocol : l.protocol = proto.number
  shape : Shape p l.offset l.total proto

theorem Carries.placed {p : Bytes} {l : Layout} {f : FlowKey} (h : Carries p l f) :
    Placed p l f.protocol :=
  ⟨h.layout, h.protocol, h.shape⟩

theorem ipVersion_eq_ok {p : Bytes} {v : UInt8} :
    ipVersion p = .ok v ↔ 0 < p.length ∧ p.byteAt 0 >>> 4 = v := by
  cases p with
  | nil => simp [ipVersion, okOr, fail]
  | cons b p => simp [ipVersion, okOr, Bytes.byteAt]

theorem ipv4Lengths_eq_ok {p : Bytes} {off total : ℕ} :
    ipv4Lengths p = .ok (off, total) ↔ 20 ≤ off ∧ off ≤ total ∧ total ≤ p.length ∧
      (p.byteAt 0 &&& 0x0f).toNat * 4 = off ∧ (p.wordAt 2).toNat = total := by
  simp only [ipv4Lengths, Outcome.bind_eq_ok, Outcome.ensure_eq_ok, Bytes.index_eq_ok,
    Bytes.word_eq_ok, Outcome.pure_eq_ok]
  constructor
  · rintro ⟨-, h20, _, ⟨-, rfl⟩, -, ⟨h1, h2⟩, _, ⟨-, rfl⟩, -, ⟨h3, h4⟩, h⟩
    cases h
    exact ⟨h1, h3, h4, rfl, rfl⟩
  · rintro ⟨h1, h2, h3, rfl, rfl⟩
    exact ⟨(), by omega, _, ⟨by omega, rfl⟩, (), ⟨h1, by omega⟩, _, ⟨by omega, rfl⟩, (),
      ⟨h2, h3⟩, rfl⟩

theorem ipv6Lengths_eq_ok {p : Bytes} {total : ℕ} {next : UInt8} :
    ipv6Lengths p = .ok (total, next) ↔ 40 ≤ p.length ∧ total ≤ p.length ∧
      40 + (p.wordAt 4).toNat = total ∧ p.byteAt 6 = next := by
  simp only [ipv6Lengths, Outcome.bind_eq_ok, Outcome.ensure_eq_ok, Bytes.index_eq_ok,
    Bytes.word_eq_ok, Outcome.pure_eq_ok]
  constructor
  · rintro ⟨-, h40, _, ⟨-, rfl⟩, -, h1, _, ⟨-, rfl⟩, h⟩
    cases h
    exact ⟨h40, h1, rfl, rfl⟩
  · rintro ⟨h40, h1, rfl, rfl⟩
    exact ⟨(), h40, _, ⟨by omega, rfl⟩, (), h1, _, ⟨by omega, rfl⟩, rfl⟩

theorem Layout.Of.lengths_v4 {p : Bytes} {l : Layout} (h : l.Of p) (hv : l.isV4 = true) :
    ipv4Lengths p = .ok (l.offset, l.total) :=
  let ⟨h20, hoff, htotal, _, _⟩ := h.ipv4 hv
  ipv4Lengths_eq_ok.mpr ⟨h20, h.offset_le, h.total_le, hoff, htotal⟩

theorem Layout.Of.lengths_v6 {p : Bytes} {l : Layout} (h : l.Of p) (hv : l.isV4 = false) :
    ipv6Lengths p = .ok (l.total, p.byteAt 6) :=
  let ⟨h40, htotal, _⟩ := h.ipv6 hv
  ipv6Lengths_eq_ok.mpr ⟨h40.trans (h.offset_le.trans h.total_le), h.total_le, htotal, rfl⟩

section Walk

variable {p q : Bytes} {total rounds off : ℕ} {next : UInt8}

/-- Length of an extension header that is walked over, from its second byte. -/
def extensionLen (next length : UInt8) : Option ℕ :=
  if next = ipProtocolHopByHop ∨ next = ipProtocolRouting ∨
      next = ipProtocolDestinationOptions then some ((length.toNat + 1) * 8)
  else if next = ipProtocolAh then some ((length.toNat + 2) * 4)
  else none

theorem eight_le_extensionLen {length : UInt8} {len : ℕ} (h : extensionLen next length = some len) :
    8 ≤ len := by
  unfold extensionLen at h
  split_ifs at h <;> cases h <;> omega

/-- The two bytes that are read of such a header. -/
theorem byteAt_header : (p.slice off (off + 2)).byteAt 0 = p.byteAt off ∧
    (p.slice off (off + 2)).byteAt 1 = p.byteAt (off + 1) :=
  ⟨Bytes.byteAt_slice (by omega), Bytes.byteAt_slice (by omega)⟩

/-- One round of the walk: over an extension header, or to its end. -/
theorem ipv6TransportOffset_succ {r : UInt8 × ℕ} :
    ipv6TransportOffset p total (rounds + 1) next off = .ok r ↔
      (∃ len, extensionLen next (p.byteAt (off + 1)) = some len ∧ off + 2 ≤ p.length ∧
        off + len ≤ total ∧
        ipv6TransportOffset p total rounds (p.byteAt off) (off + len) = .ok r) ∨
      (extensionLen next (p.byteAt (off + 1)) = none ∧ next ≠ ipProtocolFragment ∧
        next ≠ ipProtocolEsp ∧ next ≠ ipProtocolNoNextHeader ∧ r = (next, off)) := by
  rw [ipv6TransportOffset]
  simp only [extensionLen]
  split_ifs with h1 h2 h3 h3 h4
  · simp [Outcome.bind_eq_ok, byteAt_header, and_assoc]
  · exact absurd (h2.symm.trans h3) (by decide)
  · simp [Outcome.bind_eq_ok, fail, h2]
  · simp [Outcome.bind_eq_ok, byteAt_header, and_assoc]
  · rcases h4 with rfl | rfl <;> simp [fail]
  · rw [not_or] at h4
    simp [h2, h4, eq_comm]

theorem ipv6HasFragmentHeader_succ :
    ipv6HasFragmentHeader p total (rounds + 1) next off = .ok false ↔
      (∃ len, extensionLen next (p.byteAt (off + 1)) = some len ∧ off + 2 ≤ p.length ∧
        off + len ≤ total ∧
        ipv6HasFragmentHeader p total rounds (p.byteAt off) (off + len) = .ok false) ∨
      (extensionLen next (p.byteAt (off + 1)) = none ∧ next ≠ ipProtocolFragment) := by
  rw [ipv6HasFragmentHeader]
  simp only [extensionLen]
  split_ifs with h1 h2 h3 h3
  · simp [Outcome.bind_eq_ok, byteAt_header, and_assoc]
  · exact absurd (h2.symm.trans h3) (by decide)
  · simp [h2]
  · simp [Outcome.bind_eq_ok, byteAt_header, and_assoc]
  · simp [h2]

theorem ipv6TransportOffset_bounds {proto : UInt8} {off' : ℕ}
    (h : ipv6TransportOffset p total rounds next off = .ok (proto, off')) :
    off ≤ off' ∧ (off ≤ total → off' ≤ total) := by
  induction rounds generalizing next off with
  | zero => simp [ipv6TransportOffset, fail] at h
  | succ rounds ih =>
    rcases ipv6TransportOffset_succ.mp h with ⟨len, -, -, hle, hw⟩ | ⟨-, -, -, -, hr⟩
    · have hb := ih hw
      omega
    · cases hr
      omega

/-- A walk that reaches a transport header met no fragment header. -/
theorem ipv6HasFragmentHeader_of_offset {r : UInt8 × ℕ}
    (h : ipv6TransportOffset p total rounds next off = .ok r) :
    ipv6HasFragmentHeader p total rounds next off = .ok false := by
  induction rounds generalizing next off with
  | zero => simp [ipv6TransportOffset, fail] at h
  | succ rounds ih =>
    rw [ipv6HasFragmentHeader_succ]
    rcases ipv6TransportOffset_succ.mp h with ⟨len, hlen, hp, hle, hw⟩ | ⟨hnone, hfrag, -, -, -⟩
    · exact .inl ⟨len, hlen, hp, hle, ih hw⟩
    · exact .inr ⟨hnone, hfrag⟩

/-- The walk reads nothing but the headers it walks over; what lies behind the
packet does not matter. -/
theorem ipv6TransportOffset_congr {proto : UInt8} {off' total' : ℕ} (hl : total ≤ q.length)
    (ht : total ≤ total') (hq : ∀ i, off ≤ i → i < off' → q.byteAt i = p.byteAt i)
    (h : ipv6TransportOffset p total rounds next off = .ok (proto, off')) :
    ipv6TransportOffset q total' rounds next off = .ok (proto, off') := by
  induction rounds generalizing next off with
  | zero => simp [ipv6TransportOffset, fail] at h
  | succ rounds ih =>
    rw [ipv6TransportOffset_succ]
    rcases ipv6TransportOffset_succ.mp h with ⟨len, hlen, hp, hle, hw⟩ | ⟨hnone, hstop⟩
    · have h8 := eight_le_extensionLen hlen
      have hb := (ipv6TransportOffset_bounds hw).1
      refine .inl ⟨len, ?_, by omega, by omega, ?_⟩
      · rw [hq (off + 1) (by omega) (by omega)]
        exact hlen
      · rw [hq off (by omega) (by omega)]
        exact ih (fun i h1 h2 => hq i (by omega) h2) hw
    · refine .inr ⟨?_, hstop⟩
      unfold extensionLen at hnone ⊢
      split_ifs at hnone ⊢
      rfl

end Walk

section Parse

variable {p q : Bytes} {l : Layout} {f : FlowKey}

theorem echo_allows {hi lo : UInt8} :
    (TransportProtocol.icmp.Allows (be16 hi lo) ↔ (hi = 0 ∨ hi = 8) ∧ lo = 0) ∧
      (TransportProtocol.icmpv6.Allows (be16 hi lo) ↔ (hi = 128 ∨ hi = 129) ∧ lo = 0) := by
  have h1 := hi.toNat_lt
  have h2 := lo.toNat_lt
  simp only [TransportProtocol.Allows, ← UInt16.toNat_inj, ← UInt8.toNat_inj, be16_toNat,
    UInt16.reduceToNat, UInt8.reduceToNat]
  omega

/-- A front part of the transport bytes, as the readers of one take it. -/
theorem getRange_transport {off stop n : ℕ} (hle : off ≤ stop) (hp : stop ≤ p.length)
    {o : Outcome PacketError FlowKey} {k : Bytes → Outcome PacketError FlowKey}
    (ho : o = okOr ((p.slice off stop).getRange 0 n) .truncatedTransportHeader >>= k) :
    o = .ok f ↔ off + n ≤ stop ∧ k (p.slice off (off + n)) = .ok f := by
  simp only [ho, Outcome.bind_eq_ok, Outcome.okOr_eq_ok, Bytes.getRange_slice hp hle]
  constructor
  · rintro ⟨_, ⟨h, rfl⟩, hk⟩
    exact ⟨h, hk⟩
  · rintro ⟨h, hk⟩
    exact ⟨_, ⟨h, rfl⟩, hk⟩

section Build

variable {source destination : IpAddr} {off stop : ℕ}

/-- Reading a flow key of one of the four protocols. -/
theorem buildFlowKey_number (proto : TransportProtocol) (hle : off ≤ stop) (hp : stop ≤ p.length) :
    buildFlowKey source destination proto.number (p.slice off stop) = .ok f ↔
      Shape p off stop proto ∧ proto.Allows (p.wordAt (off + proto.destinationField)) ∧
        f = ⟨source, destination, p.wordAt (off + proto.sourceField),
          p.wordAt (off + proto.destinationField), proto⟩ := by
  cases proto
  case tcp =>
    rw [getRange_transport hle hp (by rw [TransportProtocol.number, buildFlowKey, if_pos rfl])]
    simp only [Outcome.bind_eq_ok, Outcome.ensure_eq_ok, Outcome.pure_eq_ok, Shape,
      TransportProtocol.Allows, true_and, Bytes.length_slice hp, exists_const, and_assoc]
    refine and_congr_right fun h20 => ?_
    rw [Bytes.byteAt_slice (by omega), Bytes.wordAt_slice (by omega), Bytes.wordAt_slice (by omega)]
    exact and_congr_right fun _ => and_congr (by omega) eq_comm
  case udp =>
    rw [getRange_transport hle hp
      (by rw [TransportProtocol.number, buildFlowKey, if_neg (by decide), if_pos rfl])]
    simp only [Outcome.bind_eq_ok, Outcome.ensure_eq_ok, Outcome.pure_eq_ok, Shape,
      TransportProtocol.Allows, true_and, Bytes.length_slice hp, exists_const, and_assoc]
    refine and_congr_right fun h8 => ?_
    rw [Bytes.wordAt_slice (by omega), Bytes.wordAt_slice (by omega), Bytes.wordAt_slice (by omega),
      ← and_assoc]
    exact and_congr (by omega) eq_comm
  -- the two kinds of echo message
  all_goals
    rw [getRange_transport hle hp (by rw [TransportProtocol.number, buildFlowKey,
      if_neg (by decide), if_neg (by decide), if_pos (by decide)])]
    simp +decide only [Outcome.bind_eq_ok, Outcome.ensure_eq_ok, Outcome.pure_eq_ok, Shape,
      exists_const, if_true, if_false]
    refine and_congr_right fun h8 => ?_
    rw [Bytes.byteAt_slice (by omega), Bytes.byteAt_slice (by omega),
      Bytes.wordAt_slice (by omega), Bytes.wordAt_slice (by omega)]
  · exact and_congr echo_allows.1.symm eq_comm
  · exact and_congr echo_allows.2.symm eq_comm

/-- Reading a flow key off the transport bytes of `p`. -/
theorem buildFlowKey_eq_ok {protocol : UInt8} (hle : off ≤ stop) (hp : stop ≤ p.length) :
    buildFlowKey source destination protocol (p.slice off stop) = .ok f ↔
      protocol = f.protocol.number ∧ Shape p off stop f.protocol ∧
      f.protocol.Allows f.destinationPort ∧ source = f.source ∧ destination = f.destination ∧
      p.wordAt (off + f.protocol.sourceField) = f.sourcePort ∧
      p.wordAt (off + f.protocol.destinationField) = f.destinationPort := by
  constructor
  · intro h
    by_cases hnumber : ∃ proto : TransportProtocol, protocol = proto.number
    · obtain ⟨proto, rfl⟩ := hnumber
      obtain ⟨hs, ha, rfl⟩ := (buildFlowKey_number proto hle hp).mp h
      exact ⟨rfl, hs, ha, rfl, rfl, rfl, rfl⟩
    · have hnone := not_exists.mp hnumber
      have hother : protocol ≠ ipProtocolTcp ∧ protocol ≠ ipProtocolUdp ∧
          ¬ (protocol = ipProtocolIcmp ∨ protocol = ipProtocolIcmpv6) :=
        ⟨hnone .tcp, hnone .udp, not_or.mpr ⟨hnone .icmp, hnone .icmpv6⟩⟩
      rw [buildFlowKey, if_neg hother.1, if_neg hother.2.1, if_neg hother.2.2] at h
      cases h
  · rintro ⟨rfl, hs, ha, rfl, rfl, hsp, hdp⟩
    rw [buildFlowKey_number _ hle hp, hsp, hdp]
    exact ⟨hs, ha, rfl⟩

end Build

/-- A packet parses to the flow key its bytes spell. -/
theorem parseFlowKey_eq_ok : parseFlowKey p = .ok f ↔ ∃ l, Carries p l f := by
  constructor
  · intro h
    obtain ⟨v, hv, h⟩ := Outcome.bind_eq_ok.mp h
    obtain ⟨hpos, rfl⟩ := ipVersion_eq_ok.mp hv
    split_ifs at h with h4 h6
    · simp only [parseIpv4FlowKey, Outcome.bind_eq_ok, Outcome.ensure_eq_ok, Bytes.index_eq_ok,
        Bytes.word_eq_ok, Bytes.range_eq_ok] at h
      obtain ⟨⟨off, total⟩, hlen, _, ⟨-, rfl⟩, -, hfrag, _, ⟨-, rfl⟩, _, ⟨-, rfl⟩, hb⟩ := h
      obtain ⟨h20, hle, htot, hoff, htotal⟩ := ipv4Lengths_eq_ok.mp hlen
      obtain ⟨hproto, hshape, hallow, hsrc, hdst, hsp, hdp⟩ := (buildFlowKey_eq_ok hle htot).mp hb
      exact ⟨⟨true, p.byteAt 9, off, total⟩, ⟨h4, hle, htot,
        fun _ => ⟨h20, hoff, htotal, hfrag, rfl⟩, by simp⟩, hproto, hshape, hallow, hsrc, hdst,
        hsp, hdp⟩
    · simp only [parseIpv6FlowKey, Outcome.bind_eq_ok, Bytes.range_eq_ok] at h
      obtain ⟨⟨total, next⟩, hlen, ⟨proto, off⟩, hwalk, _, ⟨⟨hle, -⟩, rfl⟩, hb⟩ := h
      obtain ⟨h40, htot, htotal, rfl⟩ := ipv6Lengths_eq_ok.mp hlen
      have hoff := (ipv6TransportOffset_bounds hwalk).1
      obtain ⟨hproto, hshape, hallow, hsrc, hdst, hsp, hdp⟩ := (buildFlowKey_eq_ok hle htot).mp hb
      exact ⟨⟨false, proto, off, total⟩, ⟨h6, hle, htot, by simp, fun _ => ⟨hoff, htotal, hwalk⟩⟩,
        hproto, hshape, hallow, hsrc, hdst, hsp, hdp⟩
    · cases h
  · rintro ⟨l, hl, hproto, hshape, hallow, hsrc, hdst, hsp, hdp⟩
    have hle := hl.offset_le
    have htot := hl.total_le
    have hbuild := (buildFlowKey_eq_ok hle htot).mpr
      ⟨hproto, hshape, hallow, hsrc, hdst, hsp, hdp⟩
    have hver := hl.version
    cases hv : l.isV4 with
    | true =>
      obtain ⟨h20, hoff, htotal, hfrag, hnum⟩ := hl.ipv4 hv
      simp only [hv, if_true, Layout.source, Layout.destination, ← hnum] at hver hbuild
      rw [parseFlowKey, Outcome.bind_eq_ok]
      refine ⟨_, ipVersion_eq_ok.mpr ⟨by omega, rfl⟩, ?_⟩
      rw [if_pos hver, parseIpv4FlowKey, hl.lengths_v4 hv]
      simpa [Bytes.word_ok (show 6 + 1 < p.length by omega), hfrag, ensure,
        Bytes.index_ok (show 9 < p.length by omega), Bytes.range_ok hle htot] using hbuild
    | false =>
      obtain ⟨h40, htotal, hwalk⟩ := hl.ipv6 hv
      simp only [hv, Bool.false_eq_true, if_false, Layout.source, Layout.destination]
        at hver hbuild
      rw [parseFlowKey, Outcome.bind_eq_ok]
      refine ⟨_, ipVersion_eq_ok.mpr ⟨by omega, rfl⟩, ?_⟩
      rw [if_neg (by rw [hver]; decide), if_pos hver, parseIpv6FlowKey, hl.lengths_v6 hv,
        Outcome.bind_ok]
      simpa [hwalk, Bytes.range_ok hle htot] using hbuild

namespace Layout.Of

theorem length_pos (h : l.Of p) : 20 ≤ l.offset ∧ (l.isV4 = false → 40 ≤ l.offset) := by
  cases hv : l.isV4 with
  | true => exact ⟨(h.ipv4 hv).1, by simp⟩
  | false =>
    have h40 := (h.ipv6 hv).1
    exact ⟨by omega, fun _ => h40⟩

theorem ipVersion (h : l.Of p) : ipVersion p = .ok (if l.isV4 then 4 else 6) := by
  have h1 := h.length_pos
  have h2 := h.offset_le
  have h3 := h.total_le
  exact ipVersion_eq_ok.mpr ⟨by omega, h.version⟩

theorem transportMetadata (h : l.Of p) :
    transportMetadata p = .ok (l.protocol, l.offset, l.total) := by
  have hle := h.offset_le
  have htot := h.total_le
  rw [Packet.transportMetadata, h.ipVersion, Outcome.bind_ok]
  cases hv : l.isV4 with
  | true =>
    obtain ⟨h20, -, -, -, hnum⟩ := h.ipv4 hv
    simp [h.lengths_v4 hv, Bytes.index_ok (show 9 < p.length by omega), hnum]
  | false => simp [h.lengths_v6 hv, (h.ipv6 hv).2.2]

theorem not_fragmented (h : l.Of p) : ipPacketIsFragmented p = .ok false := by
  have hle := h.offset_le
  have htot := h.total_le
  rw [ipPacketIsFragmented, h.ipVersion, Outcome.bind_ok]
  cases hv : l.isV4 with
  | true =>
    obtain ⟨h20, -, -, hfrag, -⟩ := h.ipv4 hv
    simp [h.lengths_v4 hv, Bytes.word_ok (show 6 + 1 < p.length by omega), hfrag]
  | false => simp [h.lengths_v6 hv, ipv6HasFragmentHeader_of_offset (h.ipv6 hv).2.2]

theorem unique {l' : Layout} (h : l.Of p) (h' : l'.Of p) : l = l' := by
  have hm := h.transportMetadata.symm.trans h'.transportMetadata
  have hv := h.version.symm.trans h'.version
  obtain ⟨v, proto, off, total⟩ := l
  obtain ⟨v', proto', off', total'⟩ := l'
  simp only [Except.ok.injEq, Prod.mk.injEq] at hm
  obtain ⟨rfl, rfl, rfl⟩ := hm
  cases v <;> cases v' <;> simp at hv <;> rfl

end Layout.Of

/-- Bytes of the IP header that the layout is read from; the others may be
edited without moving it. -/
def Layout.Reads (l : Layout) (i : ℕ) : Prop :=
  if l.isV4 then i < 8 ∨ i = 9 else i < 7 ∨ 40 ≤ i ∧ i < l.offset

theorem Layout.Of.congr {T : ℕ → Prop} (h : l.Of p) (hs : Bytes.SameExcept T p q)
    (hT : ∀ i, l.Reads i → ¬ T i) : l.Of q := by
  have hbyte : ∀ i, l.Reads i → q.byteAt i = p.byteAt i := fun i hi => hs.byte i (hT i hi)
  have hword : ∀ i, l.Reads i → l.Reads (i + 1) → q.wordAt i = p.wordAt i :=
    fun i h0 h1 => hs.wordAt (hT i h0) (hT _ h1)
  refine ⟨?_, h.offset_le, hs.length ▸ h.total_le, fun hv => ?_, fun hv => ?_⟩
  · rw [hbyte 0 (by unfold Layout.Reads; split_ifs <;> omega)]
    exact h.version
  · have hr : ∀ i, i < 8 ∨ i = 9 → l.Reads i := by simp [Layout.Reads, hv]
    rw [hbyte 0 (hr 0 (by omega)), hword 2 (hr 2 (by omega)) (hr 3 (by omega)),
      hword 6 (hr 6 (by omega)) (hr 7 (by omega)), hbyte 9 (hr 9 (by omega))]
    exact h.ipv4 hv
  · have hr : ∀ i, i < 7 ∨ 40 ≤ i ∧ i < l.offset → l.Reads i := by simp [Layout.Reads, hv]
    obtain ⟨h40, htotal, hwalk⟩ := h.ipv6 hv
    rw [hword 4 (hr 4 (by omega)) (hr 5 (by omega)), hbyte 6 (hr 6 (by omega))]
    exact ⟨h40, htotal, ipv6TransportOffset_congr (hs.length ▸ h.total_le) le_rfl
      (fun i h1 h2 => hbyte i (hr i (by omega))) hwalk⟩

/-- Bytes of the transport header that `Shape` depends on. -/
def ShapeReads (off : ℕ) : TransportProtocol → ℕ → Prop
  | .tcp, i => i = off + 12
  | .udp, i => i = off + 4 ∨ i = off + 5
  | .icmp, _ | .icmpv6, _ => False

theorem ShapeReads.le {off i : ℕ} {proto : TransportProtocol} (h : ShapeReads off proto i) :
    off ≤ i := by
  cases proto <;> simp only [ShapeReads] at h <;> omega

/-- An edit away from the bytes that fix the layout keeps it. -/
theorem Placed.edit {T : ℕ → Prop} {proto : TransportProtocol} (h : Placed p l proto)
    (hs : Bytes.SameExcept T p q) (hread : ∀ i, l.Reads i → ¬ T i)
    (hshape : ∀ i, ShapeReads l.offset proto i → ¬ T i) : Placed q l proto := by
  refine ⟨h.layout.congr hs hread, h.protocol, ?_⟩
  have hsh := h.shape
  cases proto with
  | tcp => simpa only [Shape, hs.byte (l.offset + 12) (hshape _ rfl)] using hsh
  | udp =>
    simpa only [Shape, hs.wordAt (hshape _ (.inl rfl)) (hshape (l.offset + 4 + 1) (.inr rfl))]
      using hsh
  | icmp => exact hsh
  | icmpv6 => exact hsh

/-- The packet then carries whatever its address and port fields spell. -/
theorem Placed.carries {proto : TransportProtocol} (h : Placed p l proto)
    (hallow : proto.Allows (p.wordAt (l.offset + proto.destinationField))) :
    Carries p l ⟨l.source p, l.destination p, p.wordAt (l.offset + proto.sourceField),
      p.wordAt (l.offset + proto.destinationField), proto⟩ :=
  ⟨h.layout, h.protocol, h.shape, hallow, rfl, rfl, rfl, rfl⟩

/-- Room for the fields a flow key and its checksum use. -/
theorem Placed.fields_le {proto : TransportProtocol} (h : Placed p l proto) :
    l.offset + proto.sourceField + 2 ≤ l.total ∧ l.offset + proto.destinationField + 2 ≤ l.total ∧
      l.offset + proto.checksumField + 2 ≤ l.total ∧ l.offset + 8 ≤ l.total := by
  have hsh := h.shape
  revert hsh
  cases proto <;> simp only [Shape, TransportProtocol.sourceField,
    TransportProtocol.destinationField, TransportProtocol.checksumField] <;> omega

theorem Carries.fields_le (h : Carries p l f) :
    l.offset + f.protocol.sourceField + 2 ≤ l.total ∧
      l.offset + f.protocol.destinationField + 2 ≤ l.total ∧
      l.offset + f.protocol.checksumField + 2 ≤ l.total ∧ l.offset + 8 ≤ l.total :=
  h.placed.fields_le

theorem Carries.family (h : Carries p l f) : f.source.isV4 = l.isV4 ∧
    f.destination.isV4 = l.isV4 := by
  rw [← h.source, ← h.destination, Layout.source, Layout.destination]
  cases l.isV4 <;> exact ⟨rfl, rfl⟩

end Parse

end Packet

end NewProxy
