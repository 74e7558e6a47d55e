import NewProxy.PacketLayout

/-!
# What forwarding and translation do to a packet

The two edits the flow plane makes: `prepareForwardedPacket` lowers the hop
limit, `rewritePacket` replaces the flow key. Each is described by the positions
it may touch and by what it leaves behind: the same layout, the requested flow
key and checksums that a receiver accepts.
-/
namespace NewProxy.Packet

open Outcome (ensure okOr fail)
open OnesComplement (wordSum finish)
open Bytes (SameExcept)

variable {p q : Bytes} {l : Layout} {f t : FlowKey}

theorem addU32_ok {a b : ℕ} (h : a + b < 2 ^ 32) : addU32 a b = .ok (a + b) :=
  if_pos h

theorem checksumAdd_ok {sum : ℕ} {bytes : Bytes} (h : sum + wordSum bytes < 2 ^ 32) :
    checksumAdd sum bytes = .ok (sum + wordSum bytes) := by
  induction bytes using NewProxy.OnesComplement.wordSum.induct generalizing sum with
  | case1 hi lo rest ih =>
    rw [wordSum] at h
    rw [checksumAdd, addU32_ok (by omega), Outcome.bind_ok, ih (by omega), wordSum, Nat.add_assoc]
  | case2 byte => exact addU32_ok h
  | case3 => rfl

theorem internetChecksum_ok {bytes : Bytes} (h : bytes.length ≤ 65575) :
    internetChecksum bytes = .ok (finish (wordSum bytes)) := by
  have hle := OnesComplement.wordSum_le bytes
  rw [internetChecksum, checksumAdd_ok (by omega), Outcome.bind_ok, Nat.zero_add]
  rfl

/-- The lengths of both headers are counted in 16 bits. -/
theorem Layout.Of.total_bound (h : l.Of p) : l.total ≤ 65575 := by
  cases hv : l.isV4 with
  | true =>
    have := (p.wordAt 2).toNat_lt
    have := (h.ipv4 hv).2.2.1
    omega
  | false =>
    have := (p.wordAt 4).toNat_lt
    have := (h.ipv6 hv).2.1
    omega

theorem zeroWord_iff {i : ℕ} (h : i + 2 ≤ p.length) : zeroWord p i = true ↔ p.wordAt i = 0 := by
  have hb : be16Bytes (p.wordAt i) = p.slice i (i + 2) := by
    rw [Bytes.wordAt, be16Bytes_be16]
    apply Bytes.ext_byteAt
    · rw [Bytes.length_slice h]
      simp
    · intro j hj
      simp only [List.length_cons, List.length_nil] at hj
      rw [Bytes.byteAt_slice (by omega)]
      interval_cases j <;> rfl
  rw [zeroWord, decide_eq_true_iff, Bytes.getRange_some (by omega) h, ← hb, Option.some_inj]
  constructor
  · intro h0
    have h1 := congrArg (fun b => Bytes.wordAt b 0) h0
    rw [be16Bytes] at h1
    exact (be16_div_mod _).symm.trans (h1.trans (by decide))
  · intro h0
    rw [h0]
    decide

section Checksums

/-- What is summed along with the transport bytes. -/
def pseudoSum (p : Bytes) (l : Layout) : ℕ :=
  if l.isV4 then
    if l.protocol = ipProtocolIcmp then 0
    else wordSum (p.slice 12 20) + l.protocol.toNat + (l.total - l.offset)
  else wordSum (p.slice 8 40) + wordSum (be32Bytes (l.total - l.offset)) +
    wordSum [0, 0, 0, l.protocol]

/-- A UDP datagram that carries no checksum. -/
def NoChecksum (p : Bytes) (l : Layout) : Prop :=
  l.protocol = ipProtocolUdp ∧ p.wordAt (l.offset + 6) = 0

/-- The checksums of `p` are as a receiver wants them. -/
structure Checked (p : Bytes) (l : Layout) : Prop where
  header : l.isV4 = true → finish (wordSum (p.slice 0 l.offset)) = 0
  transport : l.isV4 = true ∧ NoChecksum p l ∨ ¬ NoChecksum p l ∧
    finish (pseudoSum p l + wordSum (p.slice l.offset l.total)) = 0

theorem wordSum_slice_le (p : Bytes) (a b : ℕ) :
    wordSum (p.slice a b) ≤ 32768 * (b - a) + 65535 := by
  have hsum := OnesComplement.wordSum_le (p.slice a b)
  have hlen : (p.slice a b).length ≤ b - a := by
    simp only [Bytes.slice, List.length_drop, List.length_take]
    omega
  omega

/-- The sums over a packet are far below the range of the accumulator. -/
theorem Layout.Of.sums_bound (h : l.Of p) :
    wordSum (p.slice 12 20) ≤ 327679 ∧ wordSum (p.slice 8 40) ≤ 1114111 ∧
      wordSum (p.slice l.offset l.total) ≤ 2148827135 := by
  have htotal := h.total_bound
  have h4 := wordSum_slice_le p 12 20
  have h6 := wordSum_slice_le p 8 40
  have ht := wordSum_slice_le p l.offset l.total
  omega

theorem transportSumIpv4_ok (h : l.Of p) (hv : l.isV4 = true)
    (hp : l.protocol ≠ ipProtocolIcmp) :
    transportSumIpv4 p l.offset l.total l.protocol =
      .ok (pseudoSum p l + wordSum (p.slice l.offset l.total)) := by
  have h1 := h.length_pos
  have h2 := h.offset_le
  have h3 := h.total_le
  have hsum := h.sums_bound
  have htotal := h.total_bound
  have hproto := l.protocol.toNat_lt
  rw [transportSumIpv4, Bytes.range_ok (by omega) (by omega), Outcome.bind_ok,
    checksumAdd_ok (by omega), Outcome.bind_ok, addU32_ok (by omega), Outcome.bind_ok,
    addU32_ok (by omega), Outcome.bind_ok, Bytes.range_ok h2 h3, Outcome.bind_ok,
    checksumAdd_ok (by omega), pseudoSum, if_pos hv, if_neg hp, Nat.zero_add]

theorem transportSumIpv6_ok (h : l.Of p) (hv : l.isV4 = false) :
    transportSumIpv6 p l.offset l.total l.protocol =
      .ok (pseudoSum p l + wordSum (p.slice l.offset l.total)) := by
  have h1 := h.length_pos.2 hv
  have h2 := h.offset_le
  have h3 := h.total_le
  have hsum := h.sums_bound
  have hlen := OnesComplement.wordSum_le (be32Bytes (l.total - l.offset))
  have hproto := OnesComplement.wordSum_le [0, 0, 0, l.protocol]
  simp only [be32Bytes, List.length_cons, List.length_nil] at hlen hproto
  rw [transportSumIpv6, Bytes.range_ok (by omega) (by omega), Outcome.bind_ok,
    checksumAdd_ok (by omega), Outcome.bind_ok, checksumAdd_ok (by rw [be32Bytes]; omega),
    Outcome.bind_ok, checksumAdd_ok (by rw [be32Bytes]; omega), Outcome.bind_ok,
    Bytes.range_ok h2 h3, Outcome.bind_ok, checksumAdd_ok (by rw [be32Bytes]; omega)]
  simp [pseudoSum, hv]

theorem checksumOffset_number (proto : TransportProtocol) :
    checksumOffset proto.number = .ok proto.checksumField := by
  cases proto <;> rfl

theorem validateUdpLayout_ok (h : Carries p l f) (hu : f.protocol = .udp) :
    validateUdpLayout p l.offset l.total = .ok (l.total - l.offset) := by
  have hsh := h.shape
  have htot := h.layout.total_le
  simp only [hu, Shape] at hsh
  have hw := Bytes.wordAt_slice (p := p) (show l.offset + 4 + 1 < l.offset + 8 by omega)
  rw [validateUdpLayout, Bytes.getRange_some (by omega) (by omega)]
  simp only [okOr, Outcome.bind_ok, hw]
  have hlen : (p.wordAt (l.offset + 4)).toNat = l.total - l.offset := by omega
  rw [hlen, ensure, if_pos (by omega), ensure, if_pos (by omega), ensure, if_pos htot]
  rfl

theorem checkUdpLayout_ok (h : Carries p l f) :
    checkUdpLayout p l.protocol l.offset l.total = .ok () := by
  rw [checkUdpLayout]
  split_ifs with hu
  · have hproto : f.protocol = .udp := TransportProtocol.number_inj (h.protocol.symm.trans hu)
    rw [validateUdpLayout_ok h hproto]
    rfl
  · rfl

theorem noChecksum_iff {proto : TransportProtocol} (h : Placed p l proto) :
    l.protocol = ipProtocolUdp ∧ zeroWord p (l.offset + 6) = true ↔ NoChecksum p l := by
  have h1 := h.fields_le
  have h2 := h.layout.total_le
  rw [NoChecksum, zeroWord_iff (by omega)]

/-- The receiver's test, on a packet with a flow key. -/
theorem validatePacketChecksums_eq_ok (h : Carries p l f) :
    validatePacketChecksums p = .ok () ↔ Checked p l := by
  have h1 := h.layout.length_pos
  have h2 := h.layout.offset_le
  have h3 := h.layout.total_le
  have hver := h.layout.version
  rw [validatePacketChecksums, h.layout.transportMetadata, Outcome.bind_ok]
  dsimp only
  rw [checkUdpLayout_ok h, Outcome.bind_ok, Bytes.index_ok (by omega), Outcome.bind_ok, hver]
  cases hv : l.isV4 with
  | true =>
    have htotal := h.layout.total_bound
    simp only [if_true, Bytes.range_ok (Nat.zero_le _) (h2.trans h3), Outcome.bind_ok,
      internetChecksum_ok (show (p.slice 0 l.offset).length ≤ 65575 by
        rw [Bytes.length_slice (h2.trans h3)]; omega),
      internetChecksum_ok (show (p.slice l.offset l.total).length ≤ 65575 by
        rw [Bytes.length_slice h3]; omega), Bytes.range_ok h2 h3]
    rw [Outcome.bind_unit_eq_ok, Outcome.ensure_eq_ok]
    constructor
    · rintro ⟨hhead, htrans⟩
      refine ⟨fun _ => hhead, ?_⟩
      split_ifs at htrans with hno hicmp
      · exact .inl ⟨hv, (noChecksum_iff h.placed).mp hno⟩
      · refine .inr ⟨mt (noChecksum_iff h.placed).mpr hno, ?_⟩
        rw [pseudoSum, if_pos hv, if_pos hicmp, Nat.zero_add]
        simpa using htrans
      · refine .inr ⟨mt (noChecksum_iff h.placed).mpr hno, ?_⟩
        rw [transportSumIpv4_ok h.layout hv hicmp] at htrans
        exact Outcome.ensure_eq_ok.mp htrans
    · rintro ⟨hhead, htrans⟩
      refine ⟨hhead hv, ?_⟩
      split_ifs with hno hicmp
      · rfl
      · have hsum := (htrans.resolve_left fun hc => hno ((noChecksum_iff h.placed).mpr hc.2)).2
        rw [pseudoSum, if_pos hv, if_pos hicmp, Nat.zero_add] at hsum
        simpa using hsum
      · rw [transportSumIpv4_ok h.layout hv hicmp]
        exact Outcome.ensure_eq_ok.mpr
          (htrans.resolve_left fun hc => hno ((noChecksum_iff h.placed).mpr hc.2)).2
  | false =>
    have hck : checksumOffset l.protocol = .ok f.protocol.checksumField := by
      rw [h.protocol, checksumOffset_number]
    have hno : l.protocol = ipProtocolUdp ∧
        zeroWord p (l.offset + f.protocol.checksumField) = true ↔ NoChecksum p l := by
      rw [← noChecksum_iff h.placed]
      refine and_congr_right fun hu => ?_
      have hproto : f.protocol = .udp := TransportProtocol.number_inj (h.protocol.symm.trans hu)
      rw [hproto]
      rfl
    simp only [hck, Outcome.bind_ok, transportSumIpv6_ok h.layout hv, Bool.false_eq_true, if_false,
      if_neg (show ¬ (6 : UInt8) = 4 by decide), if_true]
    rw [Outcome.bind_unit_eq_ok, Outcome.ensure_eq_ok, hno, Outcome.ensure_eq_ok, checksumFinish]
    constructor
    · rintro ⟨hno', hsum⟩
      exact ⟨fun hc => absurd hc (by simp [hv]), .inr ⟨hno', hsum⟩⟩
    · rintro ⟨-, htrans⟩
      exact htrans.resolve_left fun hc => absurd hc.1 (by simp [hv])

end Checksums

section Positions

/-- The hop limit. -/
def Layout.Hop (l : Layout) (i : ℕ) : Prop := i = if l.isV4 then 8 else 7

/-- The IPv4 header checksum. -/
def Layout.HeaderSum (l : Layout) (i : ℕ) : Prop := l.isV4 = true ∧ 10 ≤ i ∧ i < 12

def Layout.Address (l : Layout) (i : ℕ) : Prop :=
  if l.isV4 then 12 ≤ i ∧ i < 20 else 8 ≤ i ∧ i < 40

/-- The two words of the transport header a flow key is read from. -/
def Layout.Ports (l : Layout) (proto : TransportProtocol) (i : ℕ) : Prop :=
  l.offset + proto.sourceField ≤ i ∧ i < l.offset + proto.sourceField + 2 ∨
    l.offset + proto.destinationField ≤ i ∧ i < l.offset + proto.destinationField + 2

def Layout.TransportSum (l : Layout) (proto : TransportProtocol) (i : ℕ) : Prop :=
  l.offset + proto.checksumField ≤ i ∧ i < l.offset + proto.checksumField + 2

/-- What forwarding a packet by one hop may touch. -/
def Layout.Forwarding (l : Layout) (i : ℕ) : Prop := l.Hop i ∨ l.HeaderSum i

/-- What replacing the flow key may touch. -/
def Layout.Translation (l : Layout) (proto : TransportProtocol) (i : ℕ) : Prop :=
  l.HeaderSum i ∨ l.Address i ∨ l.Ports proto i ∨ l.TransportSum proto i

theorem Layout.not_forwarding {i : ℕ} (h : l.Reads i) : ¬ l.Forwarding i := by
  simp only [Layout.Reads, Layout.Forwarding, Layout.Hop, Layout.HeaderSum] at *
  split_ifs at * with hv <;> simp [hv] at * <;> omega

theorem Layout.not_forwarding_of_le {i : ℕ} (h : 12 ≤ i ∨ l.isV4 = false ∧ 8 ≤ i) :
    ¬ l.Forwarding i := by
  simp only [Layout.Forwarding, Layout.Hop, Layout.HeaderSum]
  split_ifs with hv <;> simp [hv] at h ⊢ <;> omega

theorem Layout.le_of_address {i : ℕ} (h : l.Address i) : 12 ≤ i ∨ l.isV4 = false ∧ 8 ≤ i := by
  simp only [Layout.Address] at h
  split_ifs at h with hv <;> simp [hv] <;> omega

section Keep

variable {T : ℕ → Prop}

theorem address_congr (hs : SameExcept T p q) (hT : ∀ i, l.Address i → ¬ T i) :
    l.source q = l.source p ∧ l.destination q = l.destination p := by
  simp only [Layout.Address, Layout.source, Layout.destination] at *
  split_ifs at * with hv
  · have h12 : q.octetsAt 4 12 = p.octetsAt 4 12 := hs.octetsAt fun i h0 h1 => hT i (by omega)
    have h16 : q.octetsAt 4 16 = p.octetsAt 4 16 := hs.octetsAt fun i h0 h1 => hT i (by omega)
    rw [h12, h16]
    exact ⟨rfl, rfl⟩
  · have h8 : q.octetsAt 16 8 = p.octetsAt 16 8 := hs.octetsAt fun i h0 h1 => hT i (by omega)
    have h24 : q.octetsAt 16 24 = p.octetsAt 16 24 := hs.octetsAt fun i h0 h1 => hT i (by omega)
    rw [h8, h24]
    exact ⟨rfl, rfl⟩

theorem pseudoSum_congr (h : l.Of p) (hs : SameExcept T p q) (hT : ∀ i, l.Address i → ¬ T i) :
    pseudoSum q l = pseudoSum p l := by
  have h1 := h.length_pos
  have h2 := h.offset_le
  have h3 := h.total_le
  simp only [Layout.Address, pseudoSum] at *
  split_ifs at * with hv hi
  · rfl
  · rw [hs.slice (by omega) fun i h0 h1 => hT i (by omega)]
  · have h40 := h1.2 (by simpa using hv)
    rw [hs.slice (by omega) fun i h0 h1 => hT i (by omega)]

/-- An edit away from everything a flow key is read from keeps it. -/
theorem Carries.keep (h : Carries p l f) (hs : SameExcept T p q)
    (hT : ∀ i, l.Reads i ∨ ShapeReads l.offset f.protocol i ∨ l.Address i ∨ l.Ports f.protocol i →
      ¬ T i) : Carries q l f := by
  have hsp := hs.wordAt (hT (l.offset + f.protocol.sourceField)
    (.inr (.inr (.inr (.inl (by omega)))))) (hT _ (.inr (.inr (.inr (.inl (by omega))))))
  have hdp := hs.wordAt (hT (l.offset + f.protocol.destinationField)
    (.inr (.inr (.inr (.inr (by omega)))))) (hT _ (.inr (.inr (.inr (.inr (by omega))))))
  have hplaced := h.placed.edit hs (fun i hi => hT i (.inl hi)) fun i hi => hT i (.inr (.inl hi))
  have hedit := hplaced.carries (by rw [hdp, h.destinationPort]; exact h.allowed)
  obtain ⟨hsrc, hdst⟩ := address_congr hs fun i hi => hT i (.inr (.inr (.inl hi)))
  rw [hsp, hdp, h.sourcePort, h.destinationPort, hsrc, hdst, h.source, h.destination] at hedit
  exact hedit

end Keep

theorem Layout.Of.not_translation (hl : l.Of p) {i : ℕ} (h : l.Reads i)
    (proto : TransportProtocol) : ¬ l.Translation proto i := by
  have hoff := hl.length_pos
  simp only [Layout.Reads, Layout.Translation, Layout.HeaderSum, Layout.Address, Layout.Ports,
    Layout.TransportSum] at *
  split_ifs at * with hv <;> simp [hv] at * <;> omega

theorem Layout.Of.not_translation_of_shapeReads (hl : l.Of p) {proto : TransportProtocol} {i : ℕ}
    (h : ShapeReads l.offset proto i) : ¬ l.Translation proto i := by
  have hoff := hl.length_pos
  simp only [Layout.Translation, Layout.HeaderSum, Layout.Address, Layout.Ports,
    Layout.TransportSum]
  cases proto <;> simp only [ShapeReads, TransportProtocol.sourceField,
    TransportProtocol.destinationField, TransportProtocol.checksumField] at * <;>
  split_ifs with hv <;> simp [hv] at * <;> omega

end Positions

section Forwarding

def Layout.hopLimit (l : Layout) (p : Bytes) : UInt8 := p.byteAt (if l.isV4 then 8 else 7)

/-- The packet one hop further. -/
def forwarded (p : Bytes) (l : Layout) : Bytes :=
  let lowered := p.patch (if l.isV4 then 8 else 7) [l.hopLimit p - 1]
  if l.isV4 then
    lowered.patch 10 (be16Bytes (finish (wordSum ((lowered.patch 10 [0, 0]).slice 0 l.offset))))
  else lowered

theorem Layout.Of.hop_lt (h : l.Of p) : (if l.isV4 then 8 else 7) + 1 ≤ p.length ∧
    20 ≤ p.length := by
  have h1 := h.length_pos
  have h2 := h.offset_le
  have h3 := h.total_le
  split_ifs <;> omega

theorem Layout.Of.forwarded (h : l.Of p) : SameExcept l.Forwarding p (forwarded p l) := by
  have hlen := h.hop_lt
  have hlow : SameExcept l.Forwarding p
      (p.patch (if l.isV4 then 8 else 7) [l.hopLimit p - 1]) := by
    refine .patch hlen.1 fun i h1 h2 => .inl ?_
    simp only [List.length_singleton] at h2
    exact (Nat.le_antisymm h1 (by omega)).symm
  rw [Packet.forwarded]
  split_ifs with hv
  · simp only [hv, if_true] at hlow
    refine hlow.trans (.patch ?_ fun i h1 h2 => .inr ⟨hv, h1, by simpa using h2⟩)
    have := hlow.length
    simp only [length_be16Bytes]
    omega
  · simpa [hv] using hlow

theorem prepareForwardedPacket_eq_ok (h : l.Of p) :
    prepareForwardedPacket p = .ok q ↔
      validatePacketChecksums p = .ok () ∧ 1 < l.hopLimit p ∧ forwarded p l = q := by
  have h1 := h.length_pos
  have h2 := h.offset_le
  have h3 := h.total_le
  have htotal := h.total_bound
  rw [prepareForwardedPacket, h.not_fragmented, Outcome.bind_ok, Outcome.bind_unit_eq_ok,
    Outcome.ensure_eq_ok, and_iff_right rfl, Outcome.bind_unit_eq_ok, h.ipVersion, Outcome.bind_ok]
  refine and_congr_right fun _ => ?_
  cases hv : l.isV4 with
  | true =>
    obtain ⟨h20, hoff, -⟩ := h.ipv4 hv
    have hl8 : (p.patch 8 [p.byteAt 8 - 1]).length = p.length := Bytes.length_patch (by simp; omega)
    have hl10 : ((p.patch 8 [p.byteAt 8 - 1]).patch 10 [0, 0]).length = p.length :=
      (Bytes.length_patch (by simp; omega)).trans hl8
    simp only [if_true, Bytes.index_ok (show 0 < p.length by omega), Outcome.bind_ok, hoff,
      Bytes.index_ok (show 8 < p.length by omega),
      Bytes.write_ok (show 8 + [p.byteAt 8 - 1].length ≤ p.length by simp; omega),
      Bytes.write_ok (show 10 + [0, 0].length ≤ (p.patch 8 [p.byteAt 8 - 1]).length by simp; omega),
      Bytes.range_ok (Nat.zero_le l.offset)
        (show l.offset ≤ ((p.patch 8 [p.byteAt 8 - 1]).patch 10 [0, 0]).length by omega),
      internetChecksum_ok (show (((p.patch 8 [p.byteAt 8 - 1]).patch 10 [0, 0]).slice 0
        l.offset).length ≤ 65575 by rw [Bytes.length_slice (by omega)]; omega),
      Layout.hopLimit, hv, forwarded]
    rw [Outcome.bind_unit_eq_ok, Outcome.ensure_eq_ok, Outcome.bind_unit_eq_ok,
      Outcome.ensure_eq_ok, and_iff_right ⟨h20, by omega⟩, Bytes.write_ok (by simp; omega),
      Bytes.patch_patch (by simp; omega) (by simp), Except.ok.injEq]
  | false =>
    have h40 := h1.2 hv
    simp only [Bool.false_eq_true, if_false, if_neg (show ¬ (6 : UInt8) = 4 by decide), if_true,
      Layout.hopLimit, hv, forwarded, Bytes.index_ok (show 7 < p.length by omega), Outcome.bind_ok,
      Bytes.write_ok (show 7 + [p.byteAt 7 - 1].length ≤ p.length by simp; omega)]
    rw [Outcome.bind_unit_eq_ok, Outcome.ensure_eq_ok, Outcome.bind_unit_eq_ok,
      Outcome.ensure_eq_ok, and_iff_right (by omega), Except.ok.injEq]

theorem Carries.keep_forwarding (h : Carries p l f) (hs : SameExcept l.Forwarding p q) :
    Carries q l f := by
  have hpos := h.layout.length_pos
  refine h.keep hs fun i hi => ?_
  rcases hi with hi | hi | hi | hi
  · exact Layout.not_forwarding hi
  · have := hi.le
    exact Layout.not_forwarding_of_le (.inl (by omega))
  · exact Layout.not_forwarding_of_le (Layout.le_of_address hi)
  · refine Layout.not_forwarding_of_le (.inl ?_)
    simp only [Layout.Ports] at hi
    omega

theorem slice_forwarded (h : l.Of p) :
    (forwarded p l).slice (l.offset + 8) l.total = p.slice (l.offset + 8) l.total := by
  have hpos := h.length_pos
  refine h.forwarded.slice h.total_le fun i hi _ => Layout.not_forwarding_of_le ?_
  omega

theorem hopLimit_forwarded (h : l.Of p) : l.hopLimit (forwarded p l) = l.hopLimit p - 1 := by
  have hlen := h.hop_lt
  have hlow : (p.patch (if l.isV4 then 8 else 7) [l.hopLimit p - 1]).byteAt
      (if l.isV4 then 8 else 7) = l.hopLimit p - 1 := by
    rw [Bytes.byteAt_patch hlen.1, if_pos (by simp), Nat.sub_self]
    rfl
  rw [Layout.hopLimit, forwarded]
  split_ifs with hv
  · simp only [hv, if_true] at hlow ⊢
    rw [Bytes.byteAt_patch_of_disjoint _ (.inl (by omega)), hlow]
    rw [Bytes.length_patch (by simp; omega)]
    simp only [length_be16Bytes]
    omega
  · simpa [hv] using hlow

/-- Writing the header checksum over its zeroed field. -/
theorem headerChecksum_valid {off : ℕ} (h20 : 20 ≤ off) (hle : off ≤ p.length) :
    finish (wordSum ((p.patch 10
      (be16Bytes (finish (wordSum ((p.patch 10 [0, 0]).slice 0 off))))).slice 0 off)) = 0 := by
  have hslice : ∀ bs : Bytes, bs.length = 2 →
      (p.patch 10 bs).slice 0 off = (p.slice 0 off).patch 10 bs := by
    intro bs hbs
    have hsp : (p.patch (0 + 10) bs).slice 0 off = _ := Bytes.slice_patch (by omega) hle
    simpa using hsp
  rw [hslice _ rfl, hslice _ rfl]
  have hck := OnesComplement.finish_checksum 0 (p.slice 0 off) 10
    (by rw [Bytes.length_slice hle]; omega) rfl rfl
  simpa using hck

theorem layout_of_metadata {proto : UInt8} {off total : ℕ}
    (hm : transportMetadata p = .ok (proto, off, total)) (hf : ipPacketIsFragmented p = .ok false) :
    ∃ l : Layout, l.Of p := by
  obtain ⟨v, hv, hm⟩ := Outcome.bind_eq_ok.mp hm
  rw [ipPacketIsFragmented, hv, Outcome.bind_ok] at hf
  obtain ⟨-, rfl⟩ := ipVersion_eq_ok.mp hv
  split_ifs at hm hf with h4 h6
  · obtain ⟨⟨off', total'⟩, hlen, hm⟩ := Outcome.bind_eq_ok.mp hm
    obtain ⟨h20, hle, htot, hoff, htotal⟩ := ipv4Lengths_eq_ok.mp hlen
    rw [hlen, Outcome.bind_ok, Bytes.word_ok (by omega), Outcome.bind_ok] at hf
    have hfrag : p.wordAt 6 &&& 0x3fff = 0 := by simpa using hf
    exact ⟨⟨true, p.byteAt 9, off', total'⟩, h4, hle, htot,
      fun _ => ⟨h20, hoff, htotal, hfrag, rfl⟩, by simp⟩
  · obtain ⟨⟨total', next⟩, hlen, hm⟩ := Outcome.bind_eq_ok.mp hm
    obtain ⟨⟨proto', off'⟩, hwalk, -⟩ := Outcome.bind_eq_ok.mp hm
    obtain ⟨h40, htot, htotal, rfl⟩ := ipv6Lengths_eq_ok.mp hlen
    obtain ⟨hb1, hb2⟩ := ipv6TransportOffset_bounds hwalk
    exact ⟨⟨false, proto', off', total'⟩, h6, hb2 (by omega), htot, by simp,
      fun _ => ⟨hb1, htotal, hwalk⟩⟩
  · cases hm

/-- A packet that was forwarded and then parsed carried its flow key before. -/
theorem carries_of_prepare (hp : prepareForwardedPacket p = .ok q) (hq : parseFlowKey q = .ok f) :
    ∃ l, Carries p l f ∧ Checked p l ∧ 1 < l.hopLimit p ∧ forwarded p l = q := by
  obtain ⟨frag, hfrag, h⟩ := Outcome.bind_eq_ok.mp hp
  obtain ⟨hens, hrest⟩ := Outcome.bind_unit_eq_ok.mp h
  obtain rfl := Outcome.ensure_eq_ok.mp hens
  obtain ⟨hval, -⟩ := Outcome.bind_unit_eq_ok.mp hrest
  obtain ⟨⟨proto, off, total⟩, hm, -⟩ := Outcome.bind_eq_ok.mp hval
  obtain ⟨l, hl⟩ := layout_of_metadata hm hfrag
  obtain ⟨-, hhop, rfl⟩ := (prepareForwardedPacket_eq_ok hl).mp hp
  obtain ⟨lq, hq⟩ := parseFlowKey_eq_ok.mp hq
  have hlq : lq = l := hq.layout.unique (hl.congr hl.forwarded fun i => Layout.not_forwarding)
  subst hlq
  have hc := hq.keep_forwarding hl.forwarded.symm
  exact ⟨lq, hc, (validatePacketChecksums_eq_ok hc).mp hval, hhop, rfl⟩

/-- A packet of the flow that may be forwarded: its checksums hold and a hop is left. -/
def Forwardable (p : Bytes) (f : FlowKey) : Prop :=
  ∃ l, Carries p l f ∧ Checked p l ∧ 1 < l.hopLimit p

theorem forwardable_iff :
    Forwardable p f ↔ ∃ q, prepareForwardedPacket p = .ok q ∧ parseFlowKey q = .ok f := by
  constructor
  · rintro ⟨l, hc, hchecked, hhop⟩
    exact ⟨forwarded p l, (prepareForwardedPacket_eq_ok hc.layout).mpr
      ⟨(validatePacketChecksums_eq_ok hc).mpr hchecked, hhop, rfl⟩,
      parseFlowKey_eq_ok.mpr ⟨l, hc.keep_forwarding hc.layout.forwarded⟩⟩
  · rintro ⟨q, hp, hq⟩
    obtain ⟨l, hc, hchecked, hhop, -⟩ := carries_of_prepare hp hq
    exact ⟨l, hc, hchecked, hhop⟩

end Forwarding

end NewProxy.Packet
