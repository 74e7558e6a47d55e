import NewProxy.PacketEdit

/-!
# Replacing the flow key of a packet

`rewritePacket` puts a new flow key into a packet that carries one of the same
family and protocol. The result carries the new key, passes the receiver's
checksum test and equals the old packet outside the address, port and checksum
fields.
-/
namespace NewProxy.Packet

open Outcome (ensure okOr fail)
open OnesComplement (wordSum finish)
open Bytes (SameExcept)

variable {p q : Bytes} {l : Layout} {f t : FlowKey}

/-- Two words written one after the other. -/
theorem write_two {a b : ℕ} (v w : UInt16) (hab : a + 2 ≤ b) (hb : b + 2 ≤ p.length) :
    ∃ q, (Bytes.put a (be16Bytes v) >>= fun _ => Bytes.put b (be16Bytes w) :
        Act Bytes PacketError Unit).run p = (.ok (), q) ∧
      SameExcept (fun i => a ≤ i ∧ i < a + 2 ∨ b ≤ i ∧ i < b + 2) p q ∧
      q.wordAt a = v ∧ q.wordAt b = w := by
  have h0 : a + (be16Bytes v).length ≤ p.length := by simp only [length_be16Bytes]; omega
  have h1 : (p.patch a (be16Bytes v)).length = p.length := Bytes.length_patch h0
  have h2 : b + (be16Bytes w).length ≤ (p.patch a (be16Bytes v)).length := by
    simp only [length_be16Bytes]
    omega
  refine ⟨(p.patch a (be16Bytes v)).patch b (be16Bytes w), ?_, ?_, ?_, ?_⟩
  · rw [Act.bind_of_ok (Bytes.run_put h0), Bytes.run_put h2]
  · exact SameExcept.trans (.patch h0 fun i hi hj => .inl ⟨hi, by simpa using hj⟩)
      (.patch h2 fun i hi hj => .inr ⟨hi, by simpa using hj⟩)
  · rw [Bytes.wordAt, Bytes.byteAt_patch_of_disjoint h2 (.inl (by omega)),
      Bytes.byteAt_patch_of_disjoint h2 (.inl (by omega))]
    exact Bytes.wordAt_patch v (by omega)
  · exact Bytes.wordAt_patch w (by omega)

theorem rewriteTransportFields_ok (hle : l.offset + 8 ≤ l.total) (hp : l.total ≤ p.length)
    (t : FlowKey) :
    ∃ q, (rewriteTransportFields l.offset l.total t).run p = (.ok (), q) ∧
      SameExcept (l.Ports t.protocol) p q ∧
      q.wordAt (l.offset + t.protocol.sourceField) = t.sourcePort ∧
      q.wordAt (l.offset + t.protocol.destinationField) = t.destinationPort := by
  have hget : ∀ n ≤ 8, (p.slice l.offset l.total).getRange 0 n =
      some (p.slice l.offset (l.offset + n)) := fun n hn =>
    (Bytes.getRange_slice hp (by omega)).mpr ⟨by omega, rfl⟩
  obtain ⟨q, hq, hsame, ha, hb⟩ := write_two (a := l.offset) (b := l.offset + 2) (p := p)
    t.sourcePort t.destinationPort (by omega) (by omega)
  obtain ⟨e, he, hsame', ha', hb'⟩ := write_two (a := l.offset) (b := l.offset + 4) (p := p)
    t.destinationPort t.sourcePort (by omega) (by omega)
  rw [rewriteTransportFields, Act.bind_of_ok (Act.run_get p),
    Act.bind_of_ok ((Act.run_call _ _).trans (by rw [Bytes.range_ok (by omega) hp]))]
  cases hproto : t.protocol with
  | tcp | udp =>
    rw [hget 4 (by omega)]
    exact ⟨q, hq, hsame, ha, hb⟩
  | icmp | icmpv6 =>
    rw [hget 8 (by omega)]
    exact ⟨e, he, hsame'.mono fun i hi => hi.symm, hb', ha'⟩

section TransportChecksum

variable {proto : TransportProtocol}

/-- The packet with `w` in its transport checksum field. -/
def withChecksum (p : Bytes) (l : Layout) (proto : TransportProtocol) (w : UInt16) : Bytes :=
  p.patch (l.offset + proto.checksumField) (be16Bytes w)

theorem Placed.checksum_room (h : Placed p l proto) (w : UInt16) :
    l.offset + proto.checksumField + (be16Bytes w).length ≤ p.length := by
  have h1 := h.fields_le
  have h2 := h.layout.total_le
  simp only [length_be16Bytes]
  omega

theorem withChecksum_same (h : Placed p l proto) (w : UInt16) :
    SameExcept (l.TransportSum proto) p (withChecksum p l proto w) :=
  .patch (h.checksum_room w) fun i hi hj => ⟨hi, by simpa using hj⟩

theorem Layout.Of.not_transportSum (hl : l.Of p) {i : ℕ}
    (h : l.Reads i ∨ ShapeReads l.offset proto i ∨ l.Address i ∨ l.Ports proto i) :
    ¬ l.TransportSum proto i := by
  rcases h with h | h | h | h
  · exact fun hs => hl.not_translation h proto (.inr (.inr (.inr hs)))
  · exact fun hs => hl.not_translation_of_shapeReads h (.inr (.inr (.inr hs)))
  · have hpos := hl.length_pos
    simp only [Layout.Address, Layout.TransportSum] at *
    split_ifs at h with hv <;> simp [hv] at * <;> omega
  · simp only [Layout.Ports, Layout.TransportSum] at *
    cases proto <;> simp only [TransportProtocol.sourceField, TransportProtocol.destinationField,
      TransportProtocol.checksumField] at * <;> omega

theorem Placed.translation (h : Placed p l proto) (hs : SameExcept (l.Translation proto) p q) :
    Placed q l proto :=
  h.edit hs (fun _ hi => h.layout.not_translation hi _)
    fun _ hi => h.layout.not_translation_of_shapeReads hi

theorem Placed.withChecksum (h : Placed p l proto) (w : UInt16) :
    Placed (withChecksum p l proto w) l proto :=
  h.translation ((withChecksum_same h w).mono fun _ hi => .inr (.inr (.inr hi)))

/-- The checksum `writeTransportChecksumIpv4` and its IPv6 sibling compute. -/
def transportChecksum (p : Bytes) (l : Layout) (proto : TransportProtocol) : UInt16 :=
  encodeUdpZeroChecksum l.protocol (finish (pseudoSum p l +
    wordSum ((withChecksum p l proto 0).slice l.offset l.total)))

/-- A computed UDP checksum is never the one that says there is none. -/
theorem transportChecksum_ne_zero (hu : l.protocol = ipProtocolUdp) :
    transportChecksum p l proto ≠ 0 := by
  intro hw
  simp only [transportChecksum, encodeUdpZeroChecksum, hu, true_and] at hw
  split_ifs at hw with h0
  · exact absurd hw (by decide)
  · exact h0 hw

theorem pseudoSum_withChecksum (h : Placed p l proto) (w : UInt16) :
    pseudoSum (withChecksum p l proto w) l = pseudoSum p l :=
  pseudoSum_congr h.layout (withChecksum_same h w) fun _ hi =>
    h.layout.not_transportSum (.inr (.inr (.inl hi)))

/-- A transport part whose checksum field holds the computed checksum passes the
receiver's test. -/
theorem transportChecksum_valid (h : Placed p l proto)
    (hw : p.wordAt (l.offset + proto.checksumField) = transportChecksum p l proto) :
    ¬ NoChecksum p l ∧ finish (pseudoSum p l + wordSum (p.slice l.offset l.total)) = 0 := by
  have h1 := h.fields_le
  have h2 := h.layout.total_le
  constructor
  · rintro ⟨hu, h0⟩
    have hproto : proto = .udp := TransportProtocol.number_inj (h.protocol.symm.trans hu)
    subst hproto
    exact transportChecksum_ne_zero hu (hw.symm.trans h0)
  · have hslice : ∀ w, (Packet.withChecksum p l proto w).slice l.offset l.total =
        (p.slice l.offset l.total).patch proto.checksumField (be16Bytes w) :=
      fun w => Bytes.slice_patch (by simp only [length_be16Bytes]; omega) h2
    have hself := hslice (transportChecksum p l proto)
    rw [Packet.withChecksum, ← hw, Bytes.patch_wordAt (by omega), hw] at hself
    have hlen : proto.checksumField + 2 ≤ (p.slice l.offset l.total).length := by
      rw [Bytes.length_slice h2]
      omega
    have heven : proto.checksumField % 2 = 0 := by cases proto <;> rfl
    have hck := hslice 0
    rw [show be16Bytes 0 = [0, 0] by decide] at hck
    rw [hself]
    simp only [transportChecksum, encodeUdpZeroChecksum, hck]
    split_ifs with h0
    · exact OnesComplement.finish_checksum_max _ _ _ hlen heven h0.2
    · exact OnesComplement.finish_checksum _ _ _ hlen heven rfl

theorem withChecksum_withChecksum (h : Placed p l proto) (v w : UInt16) :
    withChecksum (withChecksum p l proto v) l proto w = withChecksum p l proto w :=
  Bytes.patch_patch (h.checksum_room v) rfl

/-- The computed checksum does not depend on the checksum fields. -/
theorem transportChecksum_congr (h : Placed p l proto)
    (hs : SameExcept (fun i => l.HeaderSum i ∨ l.TransportSum proto i) p q) :
    transportChecksum q l proto = transportChecksum p l proto := by
  have hpos := h.layout.length_pos
  have h2 := h.layout.total_le
  have hroom := h.checksum_room 0
  have hlen := hs.length
  have haddr : ∀ i, l.Address i → ¬ (l.HeaderSum i ∨ l.TransportSum proto i) := by
    rintro i hi (hh | ht)
    · simp only [Layout.Address, Layout.HeaderSum, hh.1] at hi hh
      simp only [if_true] at hi
      omega
    · exact h.layout.not_transportSum (.inr (.inr (.inl hi))) ht
  have hslice : (withChecksum q l proto 0).slice l.offset l.total =
      (withChecksum p l proto 0).slice l.offset l.total := by
    refine Bytes.slice_congr ?_ ?_ fun i hi hj => ?_
    · rw [withChecksum, Bytes.length_patch (by omega)]
      omega
    · rw [withChecksum, Bytes.length_patch hroom]
      exact h2
    rw [withChecksum, withChecksum, Bytes.byteAt_patch (by omega), Bytes.byteAt_patch hroom]
    split_ifs with hin
    · rfl
    refine hs.byte i ?_
    rintro (hh | ht)
    · have := hh.2
      omega
    · exact hin ⟨ht.1, by simpa using ht.2⟩
  rw [transportChecksum, transportChecksum, pseudoSum_congr h.layout hs haddr, hslice]

theorem run_put_checksum (h : Placed p l proto) (w : UInt16) :
    (Bytes.put (l.offset + proto.checksumField) (be16Bytes w) :
      Act Bytes PacketError Unit).run p = (.ok (), withChecksum p l proto w) :=
  Bytes.run_put (h.checksum_room w)

theorem run_put_zero (h : Placed p l proto) :
    (Bytes.put (l.offset + proto.checksumField) [0, 0] : Act Bytes PacketError Unit).run p =
      (.ok (), withChecksum p l proto 0) := by
  have hzero : be16Bytes 0 = [0, 0] := by decide
  rw [← hzero]
  exact run_put_checksum h 0

/-- The checksum of the packet with its field zeroed is the checksum of the packet. -/
theorem transportChecksum_zeroed (h : Placed p l proto) :
    transportChecksum p l proto = encodeUdpZeroChecksum l.protocol
      (finish (pseudoSum (withChecksum p l proto 0) l +
        wordSum ((withChecksum p l proto 0).slice l.offset l.total))) := by
  rw [transportChecksum, pseudoSum_withChecksum h]

theorem writeTransportChecksumIpv4_ok (h : Placed p l proto) (hv : l.isV4 = true) :
    (writeTransportChecksumIpv4 l.offset l.total l.protocol).run p =
      (.ok (), withChecksum p l proto (transportChecksum p l proto)) := by
  have hz := h.withChecksum 0
  have hoff : checksumOffset l.protocol = .ok proto.checksumField := by
    rw [h.protocol, checksumOffset_number]
  rw [writeTransportChecksumIpv4, hoff, Act.bind_of_ok (Act.run_call _ _),
    Act.bind_of_ok (run_put_zero h), Act.bind_of_ok (Act.run_get _),
    transportChecksum_zeroed h]
  split_ifs with hicmp
  · have htotal := hz.layout.total_bound
    have hlen : ((withChecksum p l proto 0).slice l.offset l.total).length ≤ 65575 := by
      rw [Bytes.length_slice hz.layout.total_le]
      omega
    rw [Bytes.range_ok hz.layout.offset_le hz.layout.total_le,
      Act.bind_of_ok (Act.run_call _ _), internetChecksum_ok hlen,
      Act.bind_of_ok (Act.run_call _ _), run_put_checksum hz, withChecksum_withChecksum h,
      pseudoSum, if_pos hv, if_pos hicmp, encodeUdpZeroChecksum,
      if_neg fun hc => absurd (hicmp.symm.trans hc.1) (by decide), Nat.zero_add]
  · rw [transportSumIpv4_ok hz.layout hv hicmp, Act.bind_of_ok (Act.run_call _ _),
      run_put_checksum hz, withChecksum_withChecksum h]
    rfl

theorem writeTransportChecksumIpv6_ok (h : Placed p l proto) (hv : l.isV4 = false) :
    (writeTransportChecksumIpv6 l.offset l.total l.protocol).run p =
      (.ok (), withChecksum p l proto (transportChecksum p l proto)) := by
  have hz := h.withChecksum 0
  have hoff : checksumOffset l.protocol = .ok proto.checksumField := by
    rw [h.protocol, checksumOffset_number]
  rw [writeTransportChecksumIpv6, hoff, Act.bind_of_ok (Act.run_call _ _),
    Act.bind_of_ok (run_put_zero h), Act.bind_of_ok (Act.run_get _),
    transportChecksum_zeroed h, transportSumIpv6_ok hz.layout hv, Act.bind_of_ok (Act.run_call _ _),
    run_put_checksum hz, withChecksum_withChecksum h]
  rfl

end TransportChecksum

section Rewritten

/-- The IPv4 header checksum over its zeroed field. -/
def headerChecksum (p : Bytes) (l : Layout) : UInt16 :=
  finish (wordSum ((p.patch 10 [0, 0]).slice 0 l.offset))

/-- Everything but the two checksum fields that a rewrite may touch. -/
def Layout.Spelling (l : Layout) (proto : TransportProtocol) (i : ℕ) : Prop :=
  l.HeaderSum i ∨ l.Address i ∨ l.Ports proto i

/-- What a rewrite to `t` makes of `p`, byte for byte. -/
structure Rewritten (p q : Bytes) (l : Layout) (t : FlowKey) : Prop where
  same : SameExcept (l.Translation t.protocol) p q
  source : l.source q = t.source
  destination : l.destination q = t.destination
  sourcePort : q.wordAt (l.offset + t.protocol.sourceField) = t.sourcePort
  destinationPort : q.wordAt (l.offset + t.protocol.destinationField) = t.destinationPort
  header : l.isV4 = true → q.wordAt 10 = headerChecksum q l
  absent : l.isV4 = true → NoChecksum p l → NoChecksum q l
  transport : ¬ (l.isV4 = true ∧ NoChecksum p l) →
    q.wordAt (l.offset + t.protocol.checksumField) = transportChecksum q l t.protocol

/-- The header checksum does not depend on its own field, nor on what follows
the header. -/
theorem headerChecksum_congr {T : ℕ → Prop} (h : l.Of p) (hs : SameExcept T p q)
    (hT : ∀ i, i < l.offset → T i → 10 ≤ i ∧ i < 12) :
    headerChecksum q l = headerChecksum p l := by
  have hpos := h.length_pos
  have h2 := h.offset_le
  have h3 := h.total_le
  have hlen := hs.length
  have hp : 10 + [(0 : UInt8), 0].length ≤ p.length := by
    simp only [List.length_cons, List.length_nil]
    omega
  have hq : 10 + [(0 : UInt8), 0].length ≤ q.length := hlen ▸ hp
  have hslice : (q.patch 10 [0, 0]).slice 0 l.offset = (p.patch 10 [0, 0]).slice 0 l.offset := by
    refine Bytes.slice_congr ?_ ?_ fun i hi hj => ?_
    · rw [Bytes.length_patch hq]
      omega
    · rw [Bytes.length_patch hp]
      omega
    rw [Bytes.byteAt_patch hq, Bytes.byteAt_patch hp]
    split_ifs with hin
    · rfl
    refine hs.byte i fun ht => hin ?_
    simp only [List.length_cons, List.length_nil]
    have := hT i hj ht
    omega
  rw [headerChecksum, headerChecksum, hslice]

theorem Layout.Of.not_spelling (hl : l.Of p) {proto : TransportProtocol} {i : ℕ}
    (h : l.TransportSum proto i) : ¬ l.Spelling proto i := by
  have hpos := hl.length_pos
  rintro (hh | ha | hp)
  · have h1 := hh.2
    have h2 := h.1
    omega
  · exact hl.not_transportSum (.inr (.inr (.inl ha))) h
  · exact hl.not_transportSum (.inr (.inr (.inr hp))) h

theorem Placed.noChecksum_congr {proto : TransportProtocol} (h : Placed p l proto)
    (hs : SameExcept (l.Spelling proto) p q) : NoChecksum q l ↔ NoChecksum p l := by
  refine and_congr_right fun hu => ?_
  obtain rfl : proto = .udp := TransportProtocol.number_inj (h.protocol.symm.trans hu)
  have hnot : ∀ i, l.TransportSum .udp i → ¬ l.Spelling .udp i := fun i hi =>
    h.layout.not_spelling hi
  have hword : q.wordAt (l.offset + 6) = p.wordAt (l.offset + 6) :=
    hs.wordAt (hnot _ ⟨le_rfl, Nat.lt_add_of_pos_right (by omega)⟩)
      (hnot _ ⟨Nat.le_succ _, Nat.lt_succ_self _⟩)
  rw [hword]

/-- Equal addresses are equal bytes. -/
theorem Layout.byte_of_address (hsrc : l.source q = l.source p)
    (hdst : l.destination q = l.destination p) {i : ℕ} (hi : l.Address i) :
    q.byteAt i = p.byteAt i := by
  simp only [Layout.source, Layout.destination, Layout.Address] at *
  split_ifs at * with hv
  · rcases Nat.lt_or_ge i 16 with h | h
    · exact Bytes.byteAt_of_octetsAt (IpAddr.v4.inj hsrc) hi.1 h
    · exact Bytes.byteAt_of_octetsAt (IpAddr.v4.inj hdst) h hi.2
  · rcases Nat.lt_or_ge i 24 with h | h
    · exact Bytes.byteAt_of_octetsAt (IpAddr.v6.inj hsrc) hi.1 h
    · exact Bytes.byteAt_of_octetsAt (IpAddr.v6.inj hdst) h hi.2

/-- The transport checksum is written last. -/
theorem Rewritten.withChecksum (h : Placed p l t.protocol)
    (hs : SameExcept (l.Spelling t.protocol) p q) (hsrc : l.source q = t.source)
    (hdst : l.destination q = t.destination)
    (hsp : q.wordAt (l.offset + t.protocol.sourceField) = t.sourcePort)
    (hdp : q.wordAt (l.offset + t.protocol.destinationField) = t.destinationPort)
    (hhead : l.isV4 = true → q.wordAt 10 = headerChecksum q l)
    (hno : ¬ (l.isV4 = true ∧ NoChecksum p l)) :
    Rewritten p (withChecksum q l t.protocol (transportChecksum q l t.protocol)) l t := by
  have hs' : SameExcept (l.Translation t.protocol) p q :=
    hs.mono fun i hi => hi.imp id fun hi => hi.imp id .inl
  have hq := h.translation hs'
  have hpos := hq.layout.length_pos
  have hsame := withChecksum_same hq (transportChecksum q l t.protocol)
  obtain ⟨hsrc', hdst'⟩ := address_congr hsame fun i hi =>
    hq.layout.not_transportSum (.inr (.inr (.inl hi)))
  have hport : ∀ i, l.Ports t.protocol i → ¬ l.TransportSum t.protocol i := fun i hi =>
    hq.layout.not_transportSum (.inr (.inr (.inr hi)))
  refine ⟨hs'.trans (hsame.mono fun i hi => .inr (.inr (.inr hi))), hsrc'.trans hsrc,
    hdst'.trans hdst, ?_, ?_, fun hv => ?_, fun hv hn => absurd ⟨hv, hn⟩ hno, fun _ => ?_⟩
  · rw [hsame.wordAt (hport _ (.inl (by omega))) (hport _ (.inl (by omega))), hsp]
  · rw [hsame.wordAt (hport _ (.inr (by omega))) (hport _ (.inr (by omega))), hdp]
  · rw [hsame.wordAt (fun hi => by have := hi.1; omega) (fun hi => by have := hi.1; omega),
      hhead hv, headerChecksum_congr hq.layout hsame fun i hi ht => by have := ht.1; omega]
  · rw [transportChecksum_congr hq (hsame.mono fun i hi => .inr hi)]
    exact Bytes.wordAt_patch _ (hq.checksum_room 0)

/-- A UDP datagram over IPv4 that carries no checksum is not given one. -/
theorem Rewritten.withoutChecksum (h : Placed p l t.protocol)
    (hs : SameExcept (l.Spelling t.protocol) p q) (hsrc : l.source q = t.source)
    (hdst : l.destination q = t.destination)
    (hsp : q.wordAt (l.offset + t.protocol.sourceField) = t.sourcePort)
    (hdp : q.wordAt (l.offset + t.protocol.destinationField) = t.destinationPort)
    (hhead : l.isV4 = true → q.wordAt 10 = headerChecksum q l)
    (hv : l.isV4 = true) (hno : NoChecksum q l) : Rewritten p q l t := by
  exact ⟨hs.mono fun i hi => hi.imp id fun hi => hi.imp id .inl, hsrc, hdst, hsp, hdp, hhead,
    fun _ _ => hno, fun hc => absurd ⟨hv, (h.noChecksum_congr hs).mp hno⟩ hc⟩

namespace Rewritten

variable {p' q' : Bytes}

theorem placed (h : Rewritten p q l t) (hp : Placed p l t.protocol) : Placed q l t.protocol :=
  hp.translation h.same

theorem carries (h : Rewritten p q l t) (hp : Placed p l t.protocol)
    (hallow : t.protocol.Allows t.destinationPort) : Carries q l t := by
  have hq := h.placed hp
  exact ⟨hq.layout, hq.protocol, hq.shape, hallow, h.source, h.destination, h.sourcePort,
    h.destinationPort⟩

theorem checked (h : Rewritten p q l t) (hp : Placed p l t.protocol) : Checked q l := by
  have hq := h.placed hp
  have hpos := hq.layout.length_pos
  have h2 := hq.layout.offset_le
  have h3 := hq.layout.total_le
  constructor
  · intro hv
    have hvalid := headerChecksum_valid (p := q) hpos.1 (by omega)
    rwa [← headerChecksum, ← h.header hv, Bytes.patch_wordAt (by omega)] at hvalid
  · by_cases hno : l.isV4 = true ∧ NoChecksum p l
    · exact .inl ⟨hno.1, h.absent hno.1 hno.2⟩
    · exact .inr (transportChecksum_valid hq (h.transport hno))

/-- Whether there is a checksum is all that is kept of it. -/
theorem noChecksum_iff (h : Rewritten p q l t) (hp : Placed p l t.protocol) :
    NoChecksum q l ↔ l.isV4 = true ∧ NoChecksum p l := by
  constructor
  · intro hq
    by_contra hno
    exact (transportChecksum_valid (h.placed hp) (h.transport hno)).1 hq
  · exact fun hno => h.absent hno.1 hno.2

/-- Packets that spell the same flow have the bytes of their addresses and ports in common. -/
theorem spelled {T : ℕ → Prop} {proto : TransportProtocol} (hs : SameExcept T p q)
    (hsrc : l.source q = l.source p) (hdst : l.destination q = l.destination p)
    (hsp : q.wordAt (l.offset + proto.sourceField) = p.wordAt (l.offset + proto.sourceField))
    (hdp : q.wordAt (l.offset + proto.destinationField) =
      p.wordAt (l.offset + proto.destinationField)) :
    SameExcept (fun i => T i ∧ ¬ l.Address i ∧ ¬ l.Ports proto i) p q := by
  refine ⟨hs.length, fun i hi => ?_⟩
  by_cases ha : l.Address i
  · exact Layout.byte_of_address hsrc hdst ha
  by_cases hport : l.Ports proto i
  · rcases hport with ⟨h1, h2⟩ | ⟨h1, h2⟩
    · exact Bytes.byteAt_of_wordAt hsp h1 h2
    · exact Bytes.byteAt_of_wordAt hdp h1 h2
  exact hs.byte i fun hc => hi ⟨hc, ha, hport⟩

/-- The bytes of a rewritten packet are determined by the flow key, by the bytes
that are kept and by whether there is a checksum. -/
theorem unique (h : Rewritten p q l t) (h' : Rewritten p' q' l t) (hp : Placed p l t.protocol)
    (hs : SameExcept (l.Translation t.protocol) p p')
    (hno : l.isV4 = true → (NoChecksum p l ↔ NoChecksum p' l)) : q = q' := by
  have hq := h.placed hp
  have hall : SameExcept (l.Translation t.protocol) q q' := (h.same.symm.trans hs).trans h'.same
  have hlen := hall.length
  -- outside the two checksums the bytes agree, so both checksums are the same
  have hsums : SameExcept (fun i => l.HeaderSum i ∨ l.TransportSum t.protocol i) q q' := by
    refine (spelled hall (h'.source.trans h.source.symm) (h'.destination.trans h.destination.symm)
      (h'.sourcePort.trans h.sourcePort.symm)
      (h'.destinationPort.trans h.destinationPort.symm)).mono ?_
    rintro i ⟨hc | hc | hc | hc, ha, hp⟩
    · exact .inl hc
    · exact absurd hc ha
    · exact absurd hc hp
    · exact .inr hc
  have htransport : SameExcept l.HeaderSum q q' := by
    refine ⟨hlen, fun i hi => ?_⟩
    by_cases ht : l.TransportSum t.protocol i
    · refine Bytes.byteAt_of_wordAt ?_ ht.1 ht.2
      by_cases hn : l.isV4 = true ∧ NoChecksum p l
      · have hz := h.absent hn.1 hn.2
        have hz' := h'.absent hn.1 ((hno hn.1).mp hn.2)
        have hproto : t.protocol = .udp :=
          TransportProtocol.number_inj (hq.protocol.symm.trans hz.1)
        rw [hproto]
        exact hz'.2.trans hz.2.symm
      · have hn' : ¬ (l.isV4 = true ∧ NoChecksum p' l) := fun hc =>
          hn ⟨hc.1, (hno hc.1).mpr hc.2⟩
        rw [h.transport hn, h'.transport hn', transportChecksum_congr hq hsums]
    · exact hsums.byte i fun hc => hc.elim hi ht
  refine (Bytes.ext_byteAt hlen.symm fun i hi => ?_)
  by_cases hh : l.HeaderSum i
  · refine (Bytes.byteAt_of_wordAt ?_ hh.2.1 hh.2.2).symm
    rw [h.header hh.1, h'.header hh.1,
      headerChecksum_congr hq.layout htransport fun j _ hj => hj.2]
  · exact (htransport.byte i hh).symm

end Rewritten

end Rewritten

section Rewrite

/-- The addresses of `t` as they stand in the header. -/
theorem addresses_written {a b n : ℕ} (u v : Vector UInt8 n) (hab : a + n = b)
    (hb : b + n ≤ p.length) :
    ∃ q, (Bytes.put a u.toList >>= fun _ => Bytes.put b v.toList :
        Act Bytes PacketError Unit).run p = (.ok (), q) ∧
      SameExcept (fun i => a ≤ i ∧ i < b + n) p q ∧
      q.octetsAt n a = u ∧ q.octetsAt n b = v := by
  have h0 : a + u.toList.length ≤ p.length := by simp only [Vector.length_toList]; omega
  have h1 : (p.patch a u.toList).length = p.length := Bytes.length_patch h0
  have h2 : b + v.toList.length ≤ (p.patch a u.toList).length := by
    simp only [Vector.length_toList]
    omega
  refine ⟨(p.patch a u.toList).patch b v.toList, ?_, ?_, ?_, ?_⟩
  · rw [Act.bind_of_ok (Bytes.run_put h0), Bytes.run_put h2]
  · refine SameExcept.trans (.patch h0 fun i hi hj => ?_) (.patch h2 fun i hi hj => ?_)
    all_goals
      simp only [Vector.length_toList] at hj
      omega
  · exact (Bytes.octetsAt_congr fun i hi hj => Bytes.byteAt_patch_of_disjoint h2
      (.inl (by omega))).trans (Bytes.octetsAt_patch u (by omega))
  · exact Bytes.octetsAt_patch v (by omega)

theorem rewriteIpv4Packet_rewrites {src dst : Vector UInt8 4} (h : Placed p l t.protocol)
    (hv : l.isV4 = true) (hsrc : t.source = .v4 src) (hdst : t.destination = .v4 dst) :
    ∃ q, (rewriteIpv4Packet src dst t).run p = (.ok (), q) ∧ Rewritten p q l t := by
  obtain ⟨h20, hoff, htotal, -, hnum⟩ := h.layout.ipv4 hv
  have hle := h.layout.offset_le
  have htot := h.layout.total_le
  have hfields := h.fields_le
  obtain ⟨p2, hrun2, hsame2, hsrc2, hdst2⟩ := addresses_written (a := 12) (p := p) src dst rfl
    (by omega)
  obtain ⟨p3, hrun3, hsame3, hsp, hdp⟩ := rewriteTransportFields_ok (p := p2) (l := l)
    (by omega) (by have := hsame2.length; omega) t
  have hlen3 : p3.length = p.length := hsame3.length.trans hsame2.length
  have hput : ∀ bs : Bytes, bs.length = 2 → 10 + bs.length ≤ p3.length := fun bs hbs => by omega
  have hlen4 : (p3.patch 10 [0, 0]).length = p.length :=
    (Bytes.length_patch (hput _ rfl)).trans hlen3
  have hhlen : ((p3.patch 10 [0, 0]).slice 0 l.offset).length ≤ 65575 := by
    have htotal := h.layout.total_bound
    rw [Bytes.length_slice (by omega)]
    omega
  -- the header checksum is computed over its zeroed field
  let p5 := p3.patch 10 (be16Bytes (headerChecksum p3 l))
  have hsame35 : SameExcept (fun i => 10 ≤ i ∧ i < 12) p3 p5 :=
    .patch (hput _ rfl) fun i hi hj => ⟨hi, by simpa using hj⟩
  have hsame5 : SameExcept (l.Spelling t.protocol) p p5 := by
    refine SameExcept.trans (hsame2.mono fun i hi => ?_)
      (SameExcept.trans (hsame3.mono fun i hi => .inr (.inr hi))
        (hsame35.mono fun i hi => .inl ⟨hv, hi⟩))
    exact .inr (.inl (by simpa [Layout.Address, hv] using hi))
  have haddr : ∀ a (v : Vector UInt8 4), 12 ≤ a → a + 4 ≤ 20 → p2.octetsAt 4 a = v →
      p5.octetsAt 4 a = v := by
    intro a v h1 h2 h3
    rw [hsame35.octetsAt fun i _ _ => by omega, hsame3.octetsAt fun i _ _ hp => ?_, h3]
    simp only [Layout.Ports] at hp
    omega
  have hport : ∀ k, p5.wordAt (l.offset + k) = p3.wordAt (l.offset + k) := fun k =>
    hsame35.wordAt (by omega) (by omega)
  have hsrc5 : l.source p5 = t.source := by
    rw [Layout.source, if_pos hv, haddr 12 src (by omega) (by omega) hsrc2, hsrc]
  have hdst5 : l.destination p5 = t.destination := by
    rw [Layout.destination, if_pos hv, haddr 16 dst (by omega) (by omega) hdst2, hdst]
  have hplaced : Placed p5 l t.protocol :=
    h.translation (hsame5.mono fun i hi => hi.imp id fun hi => hi.imp id .inl)
  have hhead : l.isV4 = true → p5.wordAt 10 = headerChecksum p5 l := by
    intro _
    have hpatch : p5.patch 10 [0, 0] = p3.patch 10 [0, 0] := Bytes.patch_patch (hput _ rfl) rfl
    rw [headerChecksum, hpatch]
    exact Bytes.wordAt_patch _ (hput [0, 0] rfl)
  have hpatch : (p3.patch 10 [0, 0]).patch 10 (be16Bytes (headerChecksum p3 l)) = p5 :=
    Bytes.patch_patch (hput _ rfl) rfl
  have hrun : (rewriteIpv4Packet src dst t).run p =
      (if l.protocol = ipProtocolUdp ∧ zeroWord p5 (l.offset + 6) then pure ()
        else writeTransportChecksumIpv4 l.offset l.total l.protocol :
          Act Bytes PacketError Unit).run p5 := by
    rw [rewriteIpv4Packet, Act.bind_of_ok (Act.run_get p), Bytes.index_ok (by omega),
      Act.bind_of_ok (Act.run_call _ _), Bytes.word_ok (by omega),
      Act.bind_of_ok (Act.run_call _ _), hoff, htotal, Act.bind_bind_of_ok hrun2,
      Act.bind_of_ok hrun3, Act.bind_of_ok (Bytes.run_put (hput _ rfl)),
      Act.bind_of_ok (Act.run_get _), Bytes.range_ok (Nat.zero_le _) (by omega),
      Act.bind_of_ok (Act.run_call _ _), internetChecksum_ok hhlen,
      Act.bind_of_ok (Act.run_call _ _), ← headerChecksum,
      Act.bind_of_ok (Bytes.run_put (by simp only [length_be16Bytes]; omega)),
      Act.bind_of_ok (Act.run_get _), hpatch,
      Bytes.index_ok (show 9 < p5.length by have := hsame5.length; omega),
      Act.bind_of_ok (Act.run_call _ _), (hplaced.layout.ipv4 hv).2.2.2.2]
  rw [hrun]
  split_ifs with hno
  · exact ⟨p5, rfl, .withoutChecksum h hsame5 hsrc5 hdst5 ((hport _).trans hsp)
      ((hport _).trans hdp) hhead hv ((noChecksum_iff hplaced).mp hno)⟩
  · refine ⟨_, writeTransportChecksumIpv4_ok hplaced hv, .withChecksum h hsame5 hsrc5 hdst5
      ((hport _).trans hsp) ((hport _).trans hdp) hhead fun hc => hno ?_⟩
    rw [noChecksum_iff hplaced]
    exact (h.noChecksum_congr hsame5).mpr hc.2

theorem rewriteIpv6Packet_rewrites {src dst : Vector UInt8 16} (h : Placed p l t.protocol)
    (hv : l.isV4 = false) (hsrc : t.source = .v6 src) (hdst : t.destination = .v6 dst) :
    ∃ q, (rewriteIpv6Packet src dst t).run p = (.ok (), q) ∧ Rewritten p q l t := by
  obtain ⟨h40, htotal, hwalk⟩ := h.layout.ipv6 hv
  have hle := h.layout.offset_le
  have htot := h.layout.total_le
  have hfields := h.fields_le
  obtain ⟨p2, hrun2, hsame2, hsrc2, hdst2⟩ := addresses_written (a := 8) (p := p) src dst rfl
    (by omega)
  obtain ⟨p3, hrun3, hsame3, hsp, hdp⟩ := rewriteTransportFields_ok (p := p2) (l := l)
    (by omega) (by have := hsame2.length; omega) t
  have hsame : SameExcept (l.Spelling t.protocol) p p3 := by
    refine SameExcept.trans (hsame2.mono fun i hi => ?_)
      (hsame3.mono fun i hi => .inr (.inr hi))
    exact .inr (.inl (by simpa [Layout.Address, hv] using hi))
  have haddr : ∀ a (v : Vector UInt8 16), a + 16 ≤ 40 → p2.octetsAt 16 a = v →
      p3.octetsAt 16 a = v := by
    intro a v h1 h2
    rw [hsame3.octetsAt fun i _ _ hp => ?_, h2]
    simp only [Layout.Ports] at hp
    omega
  have hsrc3 : l.source p3 = t.source := by
    simp only [Layout.source, hv, haddr 8 src (by omega) hsrc2, hsrc]
    rfl
  have hdst3 : l.destination p3 = t.destination := by
    simp only [Layout.destination, hv, haddr 24 dst (by omega) hdst2, hdst]
    rfl
  have hplaced : Placed p3 l t.protocol :=
    h.translation (hsame.mono fun i hi => hi.imp id fun hi => hi.imp id .inl)
  refine ⟨_, ?_, .withChecksum h hsame hsrc3 hdst3 hsp hdp (by simp [hv]) (by simp [hv])⟩
  rw [rewriteIpv6Packet, Act.bind_of_ok (Act.run_get p), Bytes.word_ok (by omega),
    Act.bind_of_ok (Act.run_call _ _), Bytes.index_ok (by omega),
    Act.bind_of_ok (Act.run_call _ _), htotal, hwalk, Act.bind_of_ok (Act.run_call _ _)]
  dsimp only
  rw [Act.bind_bind_of_ok hrun2, Act.bind_of_ok hrun3, writeTransportChecksumIpv6_ok hplaced hv]

/-- `rewritePacket` on a packet with a flow key of the same protocol and family. -/
theorem rewritePacket_rewrites (h : Carries p l f) (hproto : t.protocol = f.protocol)
    (hsrc : t.source.isV4 = l.isV4) (hdst : t.destination.isV4 = l.isV4) :
    ∃ q, (rewritePacket t).run p = (.ok (), q) ∧ Rewritten p q l t := by
  obtain ⟨hfs, hfd⟩ := h.family
  have hparse := parseFlowKey_eq_ok.mpr ⟨l, h⟩
  have hplaced : Placed p l t.protocol := hproto ▸ h.placed
  rw [rewritePacket, Act.bind_of_ok (Act.run_get p), hparse, Act.bind_of_ok (Act.run_call _ _),
    if_neg (by simp [hproto])]
  cases hv : l.isV4 with
  | true =>
    rw [hv] at hsrc hdst hfs hfd
    obtain ⟨src, hts⟩ := IpAddr.eq_v4 hsrc
    obtain ⟨dst, htd⟩ := IpAddr.eq_v4 hdst
    obtain ⟨_, hos⟩ := IpAddr.eq_v4 hfs
    obtain ⟨_, hod⟩ := IpAddr.eq_v4 hfd
    simp only [hts, htd, hos, hod]
    exact rewriteIpv4Packet_rewrites hplaced hv hts htd
  | false =>
    rw [hv] at hsrc hdst hfs hfd
    obtain ⟨src, hts⟩ := IpAddr.eq_v6 hsrc
    obtain ⟨dst, htd⟩ := IpAddr.eq_v6 hdst
    obtain ⟨_, hos⟩ := IpAddr.eq_v6 hfs
    obtain ⟨_, hod⟩ := IpAddr.eq_v6 hfd
    simp only [hts, htd, hos, hod]
    exact rewriteIpv6Packet_rewrites hplaced hv hts htd

/-- What the callers of `rewritePacket` rely on. -/
theorem rewritePacket_ok (h : Carries p l f) (hproto : t.protocol = f.protocol)
    (hsrc : t.source.isV4 = l.isV4) (hdst : t.destination.isV4 = l.isV4)
    (hallow : t.protocol.Allows t.destinationPort) :
    ∃ q, (rewritePacket t).run p = (.ok (), q) ∧ Carries q l t ∧ Checked q l ∧
      SameExcept (l.Translation t.protocol) p q := by
  have hplaced : Placed p l t.protocol := hproto ▸ h.placed
  obtain ⟨q, hrun, hq⟩ := rewritePacket_rewrites h hproto hsrc hdst
  exact ⟨q, hrun, hq.carries hplaced hallow, hq.checked hplaced, hq.same⟩

/-- A rewrite that goes through keeps the protocol and the family. -/
theorem rewritePacket_families (h : Carries p l f) (hrun : (rewritePacket t).exec p = .ok q) :
    t.protocol = f.protocol ∧ t.source.isV4 = l.isV4 ∧ t.destination.isV4 = l.isV4 := by
  obtain ⟨hfs, hfd⟩ := h.family
  obtain ⟨_, hrun⟩ := Act.exec_eq_ok.mp hrun
  rw [rewritePacket, Act.bind_of_ok (Act.run_get p), parseFlowKey_eq_ok.mpr ⟨l, h⟩,
    Act.bind_of_ok (Act.run_call _ _)] at hrun
  split_ifs at hrun with hproto
  · cases hrun
  refine ⟨(not_not.mp hproto).symm, ?_⟩
  rw [← hfs]
  revert hrun
  cases hs : f.source <;> cases hd : f.destination <;> cases hts : t.source <;>
    cases htd : t.destination <;> simp [IpAddr.isV4, Act.fail, Outcome.fail]

end Rewrite

end NewProxy.Packet
