import NewProxy.PacketLayout

/-!
# The grammar of supported packets

What a packet of a supported flow looks like, said without the readers: an IP
header, for IPv6 a chain of extension headers, and one transport message. The
chain is a derivation of its own, so that its length is a number and not the
fuel of a loop. `parseFlowKey` accepts the packets of this grammar and, since it
never compares the protocol number with the IP version, the echo messages of the
other version's ICMP.
-/
namespace NewProxy.Packet

/-- A chain of `n` extension headers of `p` from `off`, announced by `next`, each
ending by `stop`; `last` is the number that follows the chain and `fin` where it
ends. -/
inductive Extensions (p : Bytes) (stop : ℕ) : ℕ → UInt8 → ℕ → UInt8 → ℕ → Prop
  | done {next : UInt8} {off : ℕ} : Extensions p stop 0 next off next off
  | skip {n off fin len : ℕ} {next last : UInt8}
      (length : extensionLen next (p.byteAt (off + 1)) = some len) (ends : off + len ≤ stop)
      (rest : Extensions p stop n (p.byteAt off) (off + len) last fin) :
      Extensions p stop (n + 1) next off last fin

/-- An IPv4 header of an unfragmented packet with transport bytes `off..stop`. -/
structure Ipv4Header (p : Bytes) (protocol : UInt8) (off stop : ℕ) : Prop where
  version : p.byteAt 0 >>> 4 = 4
  headerLength : 5 ≤ (p.byteAt 0 &&& 0x0f).toNat
  offset : (p.byteAt 0 &&& 0x0f).toNat * 4 = off
  total : (p.wordAt 2).toNat = stop
  offset_le : off ≤ stop
  total_le : stop ≤ p.length
  moreFragments : p.wordAt 6 &&& 0x2000 = 0
  fragmentOffset : p.wordAt 6 &&& 0x1fff = 0
  protocol : p.byteAt 9 = protocol

/-- An IPv6 header with at most seven extension headers. -/
structure Ipv6Header (p : Bytes) (protocol : UInt8) (off stop : ℕ) : Prop where
  version : p.byteAt 0 >>> 4 = 6
  total : 40 + (p.wordAt 4).toNat = stop
  total_le : stop ≤ p.length
  extensions : ∃ n ≤ 7, Extensions p stop n (p.byteAt 6) 40 protocol off

def IpHeader (p : Bytes) (isV4 : Bool) (protocol : UInt8) (off stop : ℕ) : Prop :=
  if isV4 then Ipv4Header p protocol off stop else Ipv6Header p protocol off stop

/-- The transport message of a flow, in the bytes `off..stop`. -/
def Message (p : Bytes) (off stop : ℕ) : TransportProtocol → Prop
  | .tcp => 20 ≤ (p.byteAt (off + 12) >>> 4).toNat * 4 ∧
      off + (p.byteAt (off + 12) >>> 4).toNat * 4 ≤ stop
  | .udp => 8 ≤ (p.wordAt (off + 4)).toNat ∧ off + (p.wordAt (off + 4)).toNat = stop
  | .icmp => off + 8 ≤ stop ∧ (p.byteAt off = 0 ∨ p.byteAt off = 8) ∧ p.byteAt (off + 1) = 0
  | .icmpv6 => off + 8 ≤ stop ∧ (p.byteAt off = 128 ∨ p.byteAt off = 129) ∧ p.byteAt (off + 1) = 0

/-- The protocols that belong to an IP version. -/
def Speaks (isV4 : Bool) : TransportProtocol → Prop
  | .tcp | .udp => True
  | .icmp => isV4 = true
  | .icmpv6 => isV4 = false

/-- The flow key that the header fields of `p` spell. -/
def flowAt (p : Bytes) (isV4 : Bool) (off : ℕ) (protocol : TransportProtocol) : FlowKey where
  source := if isV4 then .v4 (p.octetsAt 4 12) else .v6 (p.octetsAt 16 8)
  destination := if isV4 then .v4 (p.octetsAt 4 16) else .v6 (p.octetsAt 16 24)
  sourcePort := p.wordAt (off + protocol.sourceField)
  destinationPort := p.wordAt (off + protocol.destinationField)
  protocol := protocol

/-- `p` is a packet of the supported grammar and `f` its flow. -/
def Supported (p : Bytes) (f : FlowKey) : Prop :=
  ∃ isV4 off stop, IpHeader p isV4 f.protocol.number off stop ∧ Message p off stop f.protocol ∧
    Speaks isV4 f.protocol ∧ f = flowAt p isV4 off f.protocol

/-- `p` is an echo message under the other IP version's header. -/
def Misplaced (p : Bytes) (f : FlowKey) : Prop :=
  ∃ isV4 off stop, IpHeader p isV4 f.protocol.number off stop ∧ Message p off stop f.protocol ∧
    ¬ Speaks isV4 f.protocol ∧ f = flowAt p isV4 off f.protocol

section Headers

variable {p : Bytes} {off stop : ℕ}

/-- A transport protocol's number is none of those the walk handles. -/
theorem extensionLen_number (protocol : TransportProtocol) (length : UInt8) :
    extensionLen protocol.number length = none := by
  cases protocol <;> rfl

theorem number_walked (protocol : TransportProtocol) :
    protocol.number ≠ ipProtocolFragment ∧ protocol.number ≠ ipProtocolEsp ∧
      protocol.number ≠ ipProtocolNoNextHeader := by
  cases protocol <;> decide

/-- The walk with its bound on rounds finds the chains with one header less. -/
theorem ipv6TransportOffset_eq_ok {rounds : ℕ} {next : UInt8} {protocol : TransportProtocol}
    {fin : ℕ} (hp : stop ≤ p.length) :
    ipv6TransportOffset p stop (rounds + 1) next off = .ok (protocol.number, fin) ↔
      ∃ n ≤ rounds, Extensions p stop n next off protocol.number fin := by
  rw [ipv6TransportOffset_succ]
  constructor
  · rintro (⟨len, hlen, -, hle, hw⟩ | ⟨-, -, -, -, hr⟩)
    · induction rounds generalizing next off len with
      | zero => simp [ipv6TransportOffset, Outcome.fail] at hw
      | succ rounds ih =>
        rcases ipv6TransportOffset_succ.mp hw with ⟨len', hlen', -, hle', hw'⟩ | ⟨-, -, -, -, hr⟩
        · obtain ⟨n, hn, hext⟩ := ih _ hlen' hle' hw'
          exact ⟨n + 1, by omega, .skip hlen hle hext⟩
        · obtain ⟨h1, h2⟩ := Prod.mk.injEq .. ▸ hr
          refine ⟨1, by omega, .skip hlen hle ?_⟩
          rw [h1, h2]
          exact .done
    · obtain ⟨h1, h2⟩ := Prod.mk.injEq .. ▸ hr
      rw [← h1, ← h2]
      exact ⟨0, by omega, .done⟩
  · rintro ⟨n, hn, hext⟩
    generalize hlast : protocol.number = last at hext
    induction hext generalizing rounds with
    | done =>
      subst hlast
      obtain ⟨h1, h2, h3⟩ := number_walked protocol
      exact .inr ⟨extensionLen_number _ _, h1, h2, h3, rfl⟩
    | skip hlen hle _ ih =>
      obtain ⟨rounds, rfl⟩ : ∃ k, rounds = k + 1 := ⟨rounds - 1, by omega⟩
      have h8 := eight_le_extensionLen hlen
      exact .inl ⟨_, hlen, by omega, hle, ipv6TransportOffset_succ.mpr (ih (by omega) hlast)⟩

/-- The fragment mask of the source tests both fields at once. -/
theorem fragment_mask (w : UInt16) :
    w &&& 0x3fff = 0 ↔ w &&& 0x2000 = 0 ∧ w &&& 0x1fff = 0 := by
  constructor
  · intro h
    constructor
    · calc w &&& 0x2000 = (w &&& 0x3fff) &&& 0x2000 := by rw [UInt16.and_assoc]; rfl
        _ = 0 := by rw [h]; rfl
    · calc w &&& 0x1fff = (w &&& 0x3fff) &&& 0x1fff := by rw [UInt16.and_assoc]; rfl
        _ = 0 := by rw [h]; rfl
  · rintro ⟨h1, h2⟩
    have hsplit : w &&& (0x2000 ||| 0x1fff) = (w &&& 0x2000) ||| (w &&& 0x1fff) :=
      UInt16.toBitVec_inj.mp BitVec.and_or_distrib_left
    calc w &&& 0x3fff = (w &&& 0x2000) ||| (w &&& 0x1fff) := hsplit
      _ = 0 := by rw [h1, h2]; rfl

theorem layout_iff_ipHeader {isV4 : Bool} {protocol : TransportProtocol} :
    Layout.Of ⟨isV4, protocol.number, off, stop⟩ p ↔ IpHeader p isV4 protocol.number off stop := by
  cases isV4 with
  | true =>
    constructor
    · intro h
      obtain ⟨h20, hoff, htotal, hfrag, hnum⟩ := h.ipv4 rfl
      obtain ⟨hmore, hzero⟩ := (fragment_mask _).mp hfrag
      dsimp only at h20 hoff
      exact ⟨h.version, by omega, hoff, htotal, h.offset_le, h.total_le, hmore, hzero, hnum⟩
    · rintro ⟨hver, hlen, hoff, htotal, hle, htot, hmore, hzero, hnum⟩
      exact ⟨hver, hle, htot, fun _ => ⟨show 20 ≤ off by omega, hoff, htotal,
        (fragment_mask _).mpr ⟨hmore, hzero⟩, hnum⟩, by simp⟩
  | false =>
    constructor
    · intro h
      obtain ⟨-, htotal, hwalk⟩ := h.ipv6 rfl
      exact ⟨h.version, htotal, h.total_le, (ipv6TransportOffset_eq_ok h.total_le).mp hwalk⟩
    · rintro ⟨hver, htotal, htot, hext⟩
      have hwalk := (ipv6TransportOffset_eq_ok htot).mpr hext
      obtain ⟨h40, hle⟩ := ipv6TransportOffset_bounds hwalk
      exact ⟨hver, hle (by omega), htot, by simp, fun _ => ⟨h40, htotal, hwalk⟩⟩

/-- The transport part of `Carries`, for the words a packet has at their places. -/
theorem message_iff {protocol : TransportProtocol} :
    Message p off stop protocol ↔
      Shape p off stop protocol ∧ protocol.Allows (p.wordAt (off + protocol.destinationField)) := by
  cases protocol with
  | tcp =>
    simp only [Message, Shape, TransportProtocol.Allows, and_true]
    refine ⟨?_, And.right⟩
    rintro ⟨h1, h2⟩
    exact ⟨by omega, h1, h2⟩
  | udp =>
    simp only [Message, Shape, TransportProtocol.Allows, and_true]
    constructor
    · rintro ⟨h1, h2⟩
      exact ⟨by omega, h2⟩
    · rintro ⟨h1, h2⟩
      exact ⟨by omega, h2⟩
  | icmp => exact and_congr_right fun _ => echo_allows.1.symm
  | icmpv6 => exact and_congr_right fun _ => echo_allows.2.symm

end Headers

section Grammar

variable {p : Bytes} {f : FlowKey}

theorem carries_iff {isV4 : Bool} {off stop : ℕ} :
    Carries p ⟨isV4, f.protocol.number, off, stop⟩ f ↔
      IpHeader p isV4 f.protocol.number off stop ∧ Message p off stop f.protocol ∧
        f = flowAt p isV4 off f.protocol := by
  rw [← layout_iff_ipHeader, message_iff]
  constructor
  · rintro ⟨hl, -, hshape, hallow, hsrc, hdst, hsp, hdp⟩
    refine ⟨hl, ⟨hshape, ?_⟩, ?_⟩
    · exact hdp ▸ hallow
    · obtain ⟨src, dst, sp, dp, proto⟩ := f
      simp only [flowAt, FlowKey.mk.injEq, and_true]
      exact ⟨hsrc.symm, hdst.symm, hsp.symm, hdp.symm⟩
  · rintro ⟨hl, ⟨hshape, hallow⟩, hf⟩
    refine ⟨hl, rfl, hshape, ?_, ?_, ?_, ?_, ?_⟩
    · rw [hf]
      exact hallow
    all_goals
      rw [hf]
      rfl

/-- What is accepted is the grammar, or an echo message in the wrong place. -/
theorem parseFlowKey_grammar : parseFlowKey p = .ok f ↔ Supported p f ∨ Misplaced p f := by
  rw [parseFlowKey_eq_ok]
  constructor
  · rintro ⟨⟨isV4, number, off, stop⟩, hc⟩
    obtain rfl : number = f.protocol.number := hc.protocol
    obtain ⟨hip, hmessage, hf⟩ := carries_iff.mp hc
    by_cases hs : Speaks isV4 f.protocol
    · exact .inl ⟨isV4, off, stop, hip, hmessage, hs, hf⟩
    · exact .inr ⟨isV4, off, stop, hip, hmessage, hs, hf⟩
  · rintro (⟨isV4, off, stop, hip, hmessage, -, hf⟩ | ⟨isV4, off, stop, hip, hmessage, -, hf⟩) <;>
      exact ⟨_, carries_iff.mpr ⟨hip, hmessage, hf⟩⟩

/-- A packet has one IP version. -/
theorem Supported.not_misplaced (h : Supported p f) : ¬ Misplaced p f := by
  rintro ⟨isV4', off', stop', hip', -, hs', -⟩
  obtain ⟨isV4, off, stop, hip, -, hs, -⟩ := h
  have hl := (layout_iff_ipHeader.mpr hip).unique (layout_iff_ipHeader.mpr hip')
  obtain rfl : isV4 = isV4' := congrArg Layout.isV4 hl
  exact hs' hs

/-- On a packet `parseFlowKey` decides the supported grammar, with the flow the
packet spells, exactly when the packet is not a misplaced echo message. -/
theorem parseFlowKey_exact_iff (p : Bytes) :
    (∀ f, parseFlowKey p = .ok f ↔ Supported p f) ↔ ∀ f, ¬ Misplaced p f := by
  constructor
  · intro h f hm
    exact ((h f).mp (parseFlowKey_grammar.mpr (.inr hm))).not_misplaced hm
  · intro h f
    rw [parseFlowKey_grammar]
    exact or_iff_left (h f)

/-- An ICMPv4 echo request right behind an IPv6 header. -/
def pingOverIpv6 : Bytes :=
  [0x60, 0, 0, 0, 0, 8, 1, 64] ++ List.replicate 32 0 ++ [8, 0, 0, 0, 0x12, 0x34, 0, 1]

theorem pingOverIpv6_accepted :
    parseFlowKey pingOverIpv6 =
        .ok ⟨.v6 (pingOverIpv6.octetsAt 16 8), .v6 (pingOverIpv6.octetsAt 16 24), 0x1234, 0x0800,
          .icmp⟩ ∧
      ∀ f, ¬ Supported pingOverIpv6 f := by
  have hparse : parseFlowKey pingOverIpv6 = .ok (flowAt pingOverIpv6 false 40 .icmp) := by
    decide +kernel
  refine ⟨hparse, fun f hs => ?_⟩
  have hf : flowAt pingOverIpv6 false 40 .icmp = f :=
    Except.ok.inj (hparse.symm.trans (parseFlowKey_grammar.mpr (.inl hs)))
  subst hf
  -- The version nibble is 6, so the header is an IPv6 one and does not speak ICMP.
  obtain ⟨isV4, off, stop, hip, -, hspeaks, -⟩ := hs
  obtain rfl : isV4 = true := hspeaks
  exact absurd hip.version (by decide)

end Grammar

end NewProxy.Packet
