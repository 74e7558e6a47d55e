import NewProxy.PacketSafety

/-!
# A rewrite is determined by its last flow key

`Rewritten` fixes every byte of a rewritten packet. Of the flow key a packet had
before nothing is left, so a packet that is translated step by step ends as if
it had been translated once, and a refused rewrite leaves no trace.
-/
namespace NewProxy.Packet

open Bytes (SameExcept)

/-- A packet of the flow `f` can be rewritten to `t`. -/
structure Translates (f t : FlowKey) : Prop where
  protocol : t.protocol = f.protocol
  source : t.source.isV4 = f.source.isV4
  destination : t.destination.isV4 = f.destination.isV4
  allowed : t.protocol.Allows t.destinationPort

section Exact

variable {p q r : Bytes} {l : Layout} {f t u : FlowKey}

theorem Carries.rewrites (h : Carries p l f) (ht : Translates f t) :
    ∃ q, (rewritePacket t).run p = (.ok (), q) ∧ Rewritten p q l t := by
  obtain ⟨hsrc, hdst⟩ := h.family
  exact rewritePacket_rewrites h ht.protocol (ht.source.trans hsrc) (ht.destination.trans hdst)

/-- A checksum field of zero is kept over IPv4 and never introduced. -/
theorem Rewritten.udp_zero_iff (h : Rewritten p q l t) (hp : Placed p l t.protocol)
    (hu : t.protocol = .udp) :
    q.wordAt (l.offset + 6) = 0 ↔ l.isV4 = true ∧ p.wordAt (l.offset + 6) = 0 := by
  have hnum : l.protocol = ipProtocolUdp := by
    rw [hp.protocol, hu]
    rfl
  simpa [NoChecksum, hnum] using h.noChecksum_iff hp

/-- The second of two rewrites has the last word. -/
theorem Rewritten.last (hp : Placed p l u.protocol) (hu : Rewritten p q l u)
    (hproto : t.protocol = u.protocol) (ht : Rewritten q r l t) (hdirect : Rewritten p r' l t) :
    r = r' := by
  have hpt : Placed p l t.protocol := hproto ▸ hp
  refine (hdirect.unique ht hpt (hproto ▸ hu.same) fun hv => ?_).symm
  rw [hu.noChecksum_iff hp, and_iff_right hv]

/-- What is refused is left alone. -/
theorem rewritePacket_error {e : Fault PacketError} (h : (rewritePacket t).run p = (.error e, q)) :
    q = p := by
  rcases rewritePacket_cases p t with ⟨_, hrun⟩ | ⟨_, _, _, hrun, -⟩
  · exact (Prod.mk.inj (h.symm.trans hrun)).2
  · exact absurd (Prod.mk.inj (h.symm.trans hrun)).1 (by simp)

/-- A rewrite of a packet to a flow of its protocol and family: it succeeds, it
touches the translation fields alone, the result parses to the new flow and has
valid checksums, and a rewrite in between makes no difference. -/
theorem rewritePacket_exact (hparse : parseFlowKey p = .ok f) (ht : Translates f t) :
    (∃ q, ∃ l : Layout, (rewritePacket t).run p = (.ok (), q) ∧ q.length = p.length ∧ l.Of p ∧
      SameExcept (l.Translation t.protocol) p q ∧ parseFlowKey q = .ok t ∧
      validatePacketChecksums q = .ok () ∧
      (t.protocol = .udp →
        (q.wordAt (l.offset + 6) = 0 ↔ l.isV4 = true ∧ p.wordAt (l.offset + 6) = 0)) ∧
      ∀ u r, Translates f u → (rewritePacket u).run p = (.ok (), r) →
        (rewritePacket t).run r = (.ok (), q)) ∧
      ∀ (p q : Bytes) (t : FlowKey) (e : Fault PacketError),
        (rewritePacket t).run p = (.error e, q) → q = p := by
  refine ⟨?_, fun p q t e h => rewritePacket_error h⟩
  obtain ⟨l, hc⟩ := parseFlowKey_eq_ok.mp hparse
  have hplaced : Placed p l t.protocol := ht.protocol ▸ hc.placed
  obtain ⟨q, hrun, hq⟩ := hc.rewrites ht
  have hcq := hq.carries hplaced ht.allowed
  refine ⟨q, l, hrun, hq.same.length, hc.layout, hq.same, parseFlowKey_eq_ok.mpr ⟨l, hcq⟩,
    (validatePacketChecksums_eq_ok hcq).mpr (hq.checked hplaced), hq.udp_zero_iff hplaced,
    fun u r hu hr => ?_⟩
  -- both ways end in a packet rewritten to `t`, of which there is one
  have hplaced' : Placed p l u.protocol := hu.protocol ▸ hc.placed
  obtain ⟨r', hr', hru⟩ := hc.rewrites hu
  obtain rfl : r' = r := (Prod.mk.inj (hr'.symm.trans hr)).2
  have hcr := hru.carries hplaced' hu.allowed
  obtain ⟨s, hs, hst⟩ := hcr.rewrites ⟨ht.protocol.trans hu.protocol.symm,
    ht.source.trans hu.source.symm, ht.destination.trans hu.destination.symm, ht.allowed⟩
  rw [hs, hru.last hplaced' (ht.protocol.trans hu.protocol.symm) hst hq]

/-- A DNS query of nine bytes of UDP that carries a checksum. -/
def smallQuery : Bytes :=
  [0x45, 0, 0, 29, 0, 0, 0, 0, 64, 17, 0, 0, 192, 0, 2, 1, 198, 51, 100, 7,
    0x30, 0x39, 0, 53, 0, 9, 0x12, 0x34, 0xab]

/-- The flow of `smallQuery` behind a NAT address. -/
def smallQueryTranslated : FlowKey :=
  ⟨.v4 #v[203, 0, 113, 5], .v4 #v[198, 51, 100, 7], 40000, 53, .udp⟩

theorem smallQuery_rewritten :
    ∃ q, (rewritePacket smallQueryTranslated).run smallQuery = (.ok (), q) ∧
      parseFlowKey q = .ok smallQueryTranslated := by
  have hparse : parseFlowKey smallQuery =
      .ok ⟨.v4 #v[192, 0, 2, 1], .v4 #v[198, 51, 100, 7], 12345, 53, .udp⟩ := by
    decide +kernel
  obtain ⟨⟨q, l, hrun, -, -, -, hq, -⟩, -⟩ :=
    rewritePacket_exact hparse (t := smallQueryTranslated) ⟨rfl, rfl, rfl, trivial⟩
  exact ⟨q, hrun, hq⟩

end Exact

end NewProxy.Packet
