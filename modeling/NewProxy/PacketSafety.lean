import NewProxy.MssClamp
import NewProxy.PacketRewrite

/-!
# No packet makes a reader panic

The readers index and slice without asking, after checks on lengths that arrive
with the packet. Each lemma follows the text of its function: a check that passed
gives the bound of the accesses behind it.
-/
namespace NewProxy

namespace Outcome

variable {ε ε' α : Type}

@[simp] theorem ok_ne_panic (a : α) : (.ok a : Outcome ε α) ≠ panic := by simp [panic]

@[simp] theorem pure_ne_panic (a : α) : (pure a : Outcome ε α) ≠ panic := ok_ne_panic a

@[simp] theorem fail_ne_panic (e : ε) : (fail e : Outcome ε α) ≠ panic := by simp [fail, panic]

theorem ite_ne_panic {c : Prop} [Decidable c] {x y : Outcome ε α} (hx : c → x ≠ panic)
    (hy : ¬ c → y ≠ panic) : (if c then x else y) ≠ panic := by
  split_ifs with hc
  · exact hx hc
  · exact hy hc

theorem attempt_ne_panic {o : Outcome ε α} (h : o ≠ panic) :
    (o.attempt : Outcome ε' (Except ε α)) ≠ panic := by
  obtain ⟨r, hr⟩ := attempt_ok_of_ne_panic (o := o) h
  rw [hr]
  exact ok_ne_panic r

theorem exec_ne_panic {σ : Type} {x : Act σ ε α} {s : σ} (h : (x.run s).1 ≠ panic) :
    x.exec s ≠ panic := by
  rw [Act.exec]
  rcases hr : x.run s with ⟨(e | _) | a, t⟩
  · simp [panic]
  · simp [hr, panic] at h
  · simp [panic]

end Outcome

namespace Bytes

variable {ε : Type} {p : Bytes}

theorem index_ne_panic {i : ℕ} (h : i < p.length) :
    (p.index i : Outcome ε UInt8) ≠ Outcome.panic := by
  rw [index_ok h]
  exact Outcome.ok_ne_panic _

theorem word_ne_panic {i : ℕ} (h : i + 1 < p.length) :
    (p.word i : Outcome ε UInt16) ≠ Outcome.panic := by
  rw [word_ok h]
  exact Outcome.ok_ne_panic _

theorem range_ne_panic {a b : ℕ} (h : a ≤ b) (hb : b ≤ p.length) :
    (p.range a b : Outcome ε Bytes) ≠ Outcome.panic := by
  rw [range_ok h hb]
  exact Outcome.ok_ne_panic _

theorem write_ne_panic {off : ℕ} {bs : Bytes} (h : off + bs.length ≤ p.length) :
    (p.write off bs : Outcome ε Bytes) ≠ Outcome.panic := by
  rw [write_ok h]
  exact Outcome.ok_ne_panic _

end Bytes

namespace Packet

open Outcome
open Bytes (index_ne_panic word_ne_panic range_ne_panic write_ne_panic)

variable {p q : Bytes}

theorem ipVersion_ne_panic (p : Bytes) : ipVersion p ≠ panic :=
  bind_ne_panic okOr_ne_panic fun _ _ => pure_ne_panic _

theorem ipv4Lengths_ne_panic (p : Bytes) : ipv4Lengths p ≠ panic := by
  refine bind_ne_panic ensure_ne_panic fun _ h20 => ?_
  rw [ensure_eq_ok] at h20
  refine bind_ne_panic (index_ne_panic (by omega)) fun _ _ => ?_
  refine bind_ne_panic ensure_ne_panic fun _ _ => ?_
  refine bind_ne_panic (word_ne_panic (by omega)) fun _ _ => ?_
  exact bind_ne_panic ensure_ne_panic fun _ _ => pure_ne_panic _

theorem ipv6Lengths_ne_panic (p : Bytes) : ipv6Lengths p ≠ panic := by
  refine bind_ne_panic ensure_ne_panic fun _ h40 => ?_
  rw [ensure_eq_ok] at h40
  refine bind_ne_panic (word_ne_panic (by omega)) fun _ _ => ?_
  refine bind_ne_panic ensure_ne_panic fun _ _ => ?_
  exact bind_ne_panic (index_ne_panic (by omega)) fun _ _ => pure_ne_panic _

theorem ipv6TransportOffset_ne_panic (p : Bytes) (total rounds : ℕ) (next : UInt8) (off : ℕ) :
    ipv6TransportOffset p total rounds next off ≠ panic := by
  induction rounds generalizing next off with
  | zero => exact fail_ne_panic _
  | succ rounds ih =>
    rw [ipv6TransportOffset]
    refine ite_ne_panic (fun _ => ?_) fun _ => ite_ne_panic (fun _ => ?_) fun _ =>
      ite_ne_panic (fun _ => ?_) fun _ => ite_ne_panic (fun _ => fail_ne_panic _)
        fun _ => ok_ne_panic _
    · exact bind_ne_panic okOr_ne_panic fun _ _ => bind_ne_panic ensure_ne_panic fun _ _ => ih _ _
    · exact bind_ne_panic okOr_ne_panic fun _ _ => fail_ne_panic _
    · exact bind_ne_panic okOr_ne_panic fun _ _ => bind_ne_panic ensure_ne_panic fun _ _ => ih _ _

theorem ipv6HasFragmentHeader_ne_panic (p : Bytes) (total rounds : ℕ) (next : UInt8) (off : ℕ) :
    ipv6HasFragmentHeader p total rounds next off ≠ panic := by
  induction rounds generalizing next off with
  | zero => exact fail_ne_panic _
  | succ rounds ih =>
    rw [ipv6HasFragmentHeader]
    refine ite_ne_panic (fun _ => ?_) fun _ => ite_ne_panic (fun _ => ok_ne_panic _) fun _ =>
      ite_ne_panic (fun _ => ?_) fun _ => ok_ne_panic _
    · exact bind_ne_panic okOr_ne_panic fun _ _ => bind_ne_panic ensure_ne_panic fun _ _ => ih _ _
    · exact bind_ne_panic okOr_ne_panic fun _ _ => bind_ne_panic ensure_ne_panic fun _ _ => ih _ _

theorem ipPacketIsFragmented_ne_panic (p : Bytes) : ipPacketIsFragmented p ≠ panic := by
  refine bind_ne_panic (ipVersion_ne_panic p) fun _ _ => ite_ne_panic (fun _ => ?_) fun _ =>
    ite_ne_panic (fun _ => ?_) fun _ => fail_ne_panic _
  · refine bind_ne_panic (ipv4Lengths_ne_panic p) fun lengths hlen => ?_
    obtain ⟨h20, hle, htot, -⟩ := ipv4Lengths_eq_ok.mp hlen
    exact bind_ne_panic (word_ne_panic (by omega)) fun _ _ => pure_ne_panic _
  · exact bind_ne_panic (ipv6Lengths_ne_panic p) fun _ _ => ipv6HasFragmentHeader_ne_panic _ _ _ _ _

theorem transportMetadata_ne_panic (p : Bytes) : transportMetadata p ≠ panic := by
  refine bind_ne_panic (ipVersion_ne_panic p) fun _ _ => ite_ne_panic (fun _ => ?_) fun _ =>
    ite_ne_panic (fun _ => ?_) fun _ => fail_ne_panic _
  · refine bind_ne_panic (ipv4Lengths_ne_panic p) fun lengths hlen => ?_
    obtain ⟨h20, hle, htot, -⟩ := ipv4Lengths_eq_ok.mp hlen
    exact bind_ne_panic (index_ne_panic (by omega)) fun _ _ => pure_ne_panic _
  · exact bind_ne_panic (ipv6Lengths_ne_panic p) fun _ _ =>
      bind_ne_panic (ipv6TransportOffset_ne_panic _ _ _ _ _) fun _ _ => pure_ne_panic _

/-- The bounds every user of the metadata relies on. -/
theorem transportMetadata_bounds {proto : UInt8} {off total : ℕ}
    (h : transportMetadata p = .ok (proto, off, total)) :
    20 ≤ off ∧ off ≤ total ∧ total ≤ p.length ∧ (p.byteAt 0 >>> 4 = 6 → 40 ≤ off) ∧
      total ≤ 65575 := by
  obtain ⟨v, hv, h⟩ := Outcome.bind_eq_ok.mp h
  obtain ⟨-, rfl⟩ := ipVersion_eq_ok.mp hv
  split_ifs at h with h4 h6
  · obtain ⟨⟨off', total'⟩, hlen, h⟩ := Outcome.bind_eq_ok.mp h
    obtain ⟨h20, hle, htot, -, hword⟩ := ipv4Lengths_eq_ok.mp hlen
    have := (p.wordAt 2).toNat_lt
    obtain ⟨_, -, h⟩ := Outcome.bind_eq_ok.mp h
    cases h
    exact ⟨h20, hle, htot, fun h6 => absurd (h4.symm.trans h6) (by decide), by omega⟩
  · obtain ⟨⟨total', next⟩, hlen, h⟩ := Outcome.bind_eq_ok.mp h
    obtain ⟨h40, htot, hsum, -⟩ := ipv6Lengths_eq_ok.mp hlen
    obtain ⟨⟨proto', off'⟩, hoff, h⟩ := Outcome.bind_eq_ok.mp h
    cases h
    have hb := ipv6TransportOffset_bounds hoff
    have := (p.wordAt 4).toNat_lt
    exact ⟨by omega, hb.2 (by omega), htot, fun _ => hb.1, by omega⟩
  · cases h

theorem buildFlowKey_ne_panic (source destination : IpAddr) (proto : UInt8) (t : Bytes) :
    buildFlowKey source destination proto t ≠ panic := by
  refine ite_ne_panic (fun _ => ?_) fun _ => ite_ne_panic (fun _ => ?_) fun _ =>
    ite_ne_panic (fun _ => ?_) fun _ => fail_ne_panic _
  all_goals exact bind_ne_panic okOr_ne_panic fun _ _ =>
    bind_ne_panic ensure_ne_panic fun _ _ => pure_ne_panic _

theorem parseFlowKey_ne_panic (p : Bytes) : parseFlowKey p ≠ panic := by
  refine bind_ne_panic (ipVersion_ne_panic p) fun _ _ => ite_ne_panic (fun _ => ?_) fun _ =>
    ite_ne_panic (fun _ => ?_) fun _ => fail_ne_panic _
  · refine bind_ne_panic (ipv4Lengths_ne_panic p) fun lengths hlen => ?_
    obtain ⟨h20, hle, htot, -⟩ := ipv4Lengths_eq_ok.mp hlen
    refine bind_ne_panic (word_ne_panic (by omega)) fun _ _ => ?_
    refine bind_ne_panic ensure_ne_panic fun _ _ => ?_
    refine bind_ne_panic (index_ne_panic (by omega)) fun _ _ => ?_
    exact bind_ne_panic (range_ne_panic hle htot) fun _ _ => buildFlowKey_ne_panic _ _ _ _
  · refine bind_ne_panic (ipv6Lengths_ne_panic p) fun lengths hlen => ?_
    obtain ⟨h40, htot, hsum, -⟩ := ipv6Lengths_eq_ok.mp hlen
    refine bind_ne_panic (ipv6TransportOffset_ne_panic _ _ _ _ _) fun found hoff => ?_
    have hb := ipv6TransportOffset_bounds hoff
    exact bind_ne_panic (range_ne_panic (hb.2 (by omega)) htot) fun _ _ =>
      buildFlowKey_ne_panic _ _ _ _

theorem validateUdpLayout_ne_panic (p : Bytes) (off total : ℕ) :
    validateUdpLayout p off total ≠ panic :=
  bind_ne_panic okOr_ne_panic fun _ _ => bind_ne_panic ensure_ne_panic fun _ _ =>
    bind_ne_panic ensure_ne_panic fun _ _ => bind_ne_panic ensure_ne_panic fun _ _ =>
      pure_ne_panic _

theorem checksumOffset_ne_panic (proto : UInt8) : checksumOffset proto ≠ panic :=
  ite_ne_panic (fun _ => ok_ne_panic _) fun _ => ite_ne_panic (fun _ => ok_ne_panic _) fun _ =>
    ite_ne_panic (fun _ => ok_ne_panic _) fun _ => fail_ne_panic _

theorem length_of_range {q : Bytes} {a b n : ℕ}
    (h : (p.range a b : Outcome PacketError Bytes) = .ok q) (hle : b - a ≤ n) : q.length ≤ n := by
  obtain ⟨⟨-, hb⟩, rfl⟩ := Bytes.range_eq_ok.mp h
  rw [Bytes.length_slice hb]
  exact hle

theorem internetChecksum_ne_panic {bytes : Bytes} (h : bytes.length ≤ 65575) :
    internetChecksum bytes ≠ panic := by
  rw [internetChecksum_ok h]
  exact ok_ne_panic _

theorem transportSumIpv4_ne_panic {off total : ℕ} (proto : UInt8) (h20 : 20 ≤ p.length)
    (hle : off ≤ total) (htot : total ≤ p.length) (hbound : total ≤ 65575) :
    transportSumIpv4 p off total proto ≠ panic := by
  have haddr := wordSum_slice_le p 12 20
  have htrans := wordSum_slice_le p off total
  have hproto := proto.toNat_lt
  rw [transportSumIpv4, Bytes.range_ok (by omega) h20, Outcome.bind_ok, checksumAdd_ok (by omega),
    Outcome.bind_ok, addU32_ok (by omega), Outcome.bind_ok, addU32_ok (by omega), Outcome.bind_ok,
    Bytes.range_ok hle htot, Outcome.bind_ok, checksumAdd_ok (by omega)]
  exact ok_ne_panic _

theorem transportSumIpv6_ne_panic {off total : ℕ} (proto : UInt8) (h40 : 40 ≤ p.length)
    (hle : off ≤ total) (htot : total ≤ p.length) (hbound : total ≤ 65575) :
    transportSumIpv6 p off total proto ≠ panic := by
  have haddr := wordSum_slice_le p 8 40
  have htrans := wordSum_slice_le p off total
  have hlen := OnesComplement.wordSum_le (be32Bytes (total - off))
  have hproto := OnesComplement.wordSum_le [0, 0, 0, proto]
  simp only [be32Bytes, List.length_cons, List.length_nil] at hlen hproto
  rw [transportSumIpv6, Bytes.range_ok (by omega) h40, Outcome.bind_ok, checksumAdd_ok (by omega),
    Outcome.bind_ok, checksumAdd_ok (by rw [be32Bytes]; omega), Outcome.bind_ok,
    checksumAdd_ok (by rw [be32Bytes]; omega), Outcome.bind_ok, Bytes.range_ok hle htot,
    Outcome.bind_ok, checksumAdd_ok (by rw [be32Bytes]; omega)]
  exact ok_ne_panic _

theorem validatePacketChecksums_ne_panic (p : Bytes) : validatePacketChecksums p ≠ panic := by
  refine bind_ne_panic (transportMetadata_ne_panic p) fun metadata hm => ?_
  obtain ⟨proto, off, total⟩ := metadata
  obtain ⟨h20, hle, htot, h40, hbound⟩ := transportMetadata_bounds hm
  refine bind_ne_panic (ite_ne_panic (fun _ => bind_ne_panic (validateUdpLayout_ne_panic _ _ _)
    fun _ _ => pure_ne_panic _) fun _ => ok_ne_panic _) fun _ _ => ?_
  refine bind_ne_panic (index_ne_panic (by omega)) fun first hfirst => ?_
  obtain ⟨-, rfl⟩ := Bytes.index_eq_ok.mp hfirst
  refine ite_ne_panic (fun _ => ?_) fun _ => ite_ne_panic (fun h6 => ?_) fun _ => fail_ne_panic _
  · refine bind_ne_panic (range_ne_panic (by omega) (by omega)) fun header hheader => ?_
    refine bind_ne_panic (internetChecksum_ne_panic (length_of_range hheader (by omega)))
      fun _ _ => ?_
    refine bind_ne_panic ensure_ne_panic fun _ _ => ?_
    refine ite_ne_panic (fun _ => pure_ne_panic _) fun _ => ite_ne_panic (fun _ => ?_) fun _ => ?_
    · refine bind_ne_panic (range_ne_panic hle htot) fun transport htransport => ?_
      exact bind_ne_panic (internetChecksum_ne_panic (length_of_range htransport (by omega)))
        fun _ _ => ensure_ne_panic
    · exact bind_ne_panic (transportSumIpv4_ne_panic proto (by omega) hle htot hbound)
        fun _ _ => ensure_ne_panic
  · have hoff := h40 h6
    refine bind_ne_panic (checksumOffset_ne_panic _) fun _ _ => ?_
    exact bind_ne_panic ensure_ne_panic fun _ _ => bind_ne_panic
      (transportSumIpv6_ne_panic proto (by omega) hle htot hbound) fun _ _ => ensure_ne_panic

theorem prepareForwardedPacket_ne_panic (p : Bytes) : prepareForwardedPacket p ≠ panic := by
  refine bind_ne_panic (ipPacketIsFragmented_ne_panic p) fun _ _ => ?_
  refine bind_ne_panic ensure_ne_panic fun _ _ => ?_
  refine bind_ne_panic (validatePacketChecksums_ne_panic p) fun _ hval => ?_
  -- the checksums were read with the metadata, which bounds the header
  obtain ⟨⟨proto, off, total⟩, hm, -⟩ := Outcome.bind_eq_ok.mp hval
  obtain ⟨h20, hle, htot, -⟩ := transportMetadata_bounds hm
  refine bind_ne_panic (ipVersion_ne_panic p) fun _ _ => ite_ne_panic (fun _ => ?_) fun _ =>
    ite_ne_panic (fun _ => ?_) fun _ => fail_ne_panic _
  · refine bind_ne_panic (index_ne_panic (by omega)) fun first _ => ?_
    have hfirst : (first &&& 0x0f).toNat ≤ 15 := by
      rw [UInt8.toNat_and]
      exact Nat.and_le_right
    refine bind_ne_panic ensure_ne_panic fun _ hhead => ?_
    rw [ensure_eq_ok] at hhead
    refine bind_ne_panic (index_ne_panic (by omega)) fun timeToLive _ => ?_
    refine bind_ne_panic ensure_ne_panic fun _ _ => ?_
    refine bind_ne_panic (write_ne_panic (by simp only [List.length_singleton]; omega))
      fun p1 hp1 => ?_
    obtain ⟨hw1, rfl⟩ := Bytes.write_eq_ok.mp hp1
    have hl1 := Bytes.length_patch hw1
    have hroom : 10 + [(0 : UInt8), 0].length ≤ (p.patch 8 [timeToLive - 1]).length := by
      rw [hl1]
      simp only [List.length_cons, List.length_nil]
      omega
    refine bind_ne_panic (write_ne_panic hroom) fun p2 hp2 => ?_
    obtain ⟨hw2, rfl⟩ := Bytes.write_eq_ok.mp hp2
    have hl2 := Bytes.length_patch hw2
    refine bind_ne_panic (range_ne_panic (by omega) (by omega)) fun header hheader => ?_
    refine bind_ne_panic (internetChecksum_ne_panic (length_of_range hheader (by omega)))
      fun _ _ => ?_
    exact write_ne_panic (by rw [hl2, hl1, length_be16Bytes]; omega)
  · refine bind_ne_panic ensure_ne_panic fun _ h40 => ?_
    rw [ensure_eq_ok] at h40
    refine bind_ne_panic (index_ne_panic (by omega)) fun _ _ => ?_
    refine bind_ne_panic ensure_ne_panic fun _ _ => ?_
    exact write_ne_panic (by simp only [List.length_singleton]; omega)

theorem udpPayloadRange_ne_panic (p : Bytes) : udpPayloadRange p ≠ panic :=
  bind_ne_panic (transportMetadata_ne_panic p) fun _ _ => bind_ne_panic ensure_ne_panic fun _ _ =>
    bind_ne_panic (validateUdpLayout_ne_panic _ _ _) fun _ _ => pure_ne_panic _

theorem udpPayloadRange_bounds {a b : ℕ} (h : udpPayloadRange p = .ok (a, b)) :
    a ≤ b ∧ b ≤ p.length := by
  simp only [udpPayloadRange, validateUdpLayout, Outcome.bind_eq_ok, Outcome.ensure_eq_ok,
    Outcome.pure_eq_ok, Prod.mk.injEq] at h
  obtain ⟨⟨proto, off, total⟩, -, -, -, _, ⟨_, -, -, h8, -, hsum, -, htot, rfl⟩, rfl, rfl⟩ := h
  exact ⟨by omega, by omega⟩

theorem udpPayload_ne_panic (p : Bytes) : udpPayload p ≠ panic := by
  refine bind_ne_panic (udpPayloadRange_ne_panic p) fun bounds hb => ?_
  obtain ⟨hle, hlen⟩ := udpPayloadRange_bounds hb
  exact range_ne_panic hle hlen

theorem parseTcpFlags_ne_panic (p : Bytes) : parseTcpFlags p ≠ panic :=
  bind_ne_panic (transportMetadata_ne_panic p) fun _ _ => ite_ne_panic (fun _ => pure_ne_panic _)
    fun _ => bind_ne_panic okOr_ne_panic fun _ _ => bind_ne_panic ensure_ne_panic fun _ _ =>
      pure_ne_panic _

theorem clampTcpMss_ne_panic (p : Bytes) (m : UInt16) : clampTcpMss p m ≠ panic := by
  refine bind_ne_panic (transportMetadata_ne_panic p) fun metadata hm => ?_
  obtain ⟨proto, off, total⟩ := metadata
  obtain ⟨-, -, htot, -⟩ := transportMetadata_bounds hm
  refine ite_ne_panic (fun _ => pure_ne_panic _) fun _ => bind_ne_panic okOr_ne_panic fun _ _ => ?_
  refine ite_ne_panic (fun _ => pure_ne_panic _) fun _ => bind_ne_panic ensure_ne_panic
    fun _ hlen => ?_
  rw [ensure_eq_ok] at hlen
  -- the options end with the packet at the latest, and the walk stays before their end
  obtain ⟨b, q, hq, -⟩ := clampMssOptions_ok m (off + 20) (hlen.2.trans htot) false
  rw [hq]
  exact ok_ne_panic _

/-- A rewrite goes through or is refused with the packet as it was: nothing is
written before the last check. -/
theorem rewritePacket_cases (p : Bytes) (t : FlowKey) :
    (∃ e, (rewritePacket t).run p = (.error (.error e), p)) ∨
      ∃ q l f, (rewritePacket t).run p = (.ok (), q) ∧ Carries p l f ∧ t.protocol = f.protocol ∧
        Rewritten p q l t := by
  rcases hparse : parseFlowKey p with (e | _) | f
  · refine .inl ⟨e, ?_⟩
    rw [rewritePacket, Act.bind_of_ok (Act.run_get p),
      Act.bind_of_error (show (Act.call (parseFlowKey p)).run p = (.error (.error e), p) by
        rw [Act.run_call, hparse])]
  · exact absurd hparse (parseFlowKey_ne_panic p)
  obtain ⟨l, hc⟩ := parseFlowKey_eq_ok.mp hparse
  by_cases hfit : t.protocol = f.protocol ∧ t.source.isV4 = l.isV4 ∧ t.destination.isV4 = l.isV4
  · obtain ⟨q, hrun, hq⟩ := rewritePacket_rewrites hc hfit.1 hfit.2.1 hfit.2.2
    exact .inr ⟨q, l, f, hrun, hc, hfit.1, hq⟩
  · refine .inl ⟨.invalidTranslation, ?_⟩
    have hfam := hc.family
    rw [rewritePacket, Act.bind_of_ok (Act.run_get p),
      Act.bind_of_ok (show (Act.call (parseFlowKey p)).run p = (.ok f, p) by
        rw [Act.run_call, hparse])]
    by_cases hproto : f.protocol = t.protocol
    · rw [if_neg (not_not.mpr hproto)]
      split
      · rename_i h1 h2 h3 h4
        refine absurd ⟨hproto.symm, ?_, ?_⟩ hfit <;> simp_all [IpAddr.isV4]
      · rename_i h1 h2 h3 h4
        refine absurd ⟨hproto.symm, ?_, ?_⟩ hfit <;> simp_all [IpAddr.isV4]
      · rfl
    · rw [if_pos hproto]
      rfl

theorem rewritePacket_ne_panic (p : Bytes) (t : FlowKey) : (rewritePacket t).exec p ≠ panic := by
  apply exec_ne_panic
  rcases rewritePacket_cases p t with ⟨e, hrun⟩ | ⟨q, l, f, hrun, -⟩ <;> rw [hrun]
  · exact fail_ne_panic e
  · exact ok_ne_panic ()

end Packet

end NewProxy
