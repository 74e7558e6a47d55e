import NewProxy.DnsPacket
import NewProxy.IoWorker
import NewProxy.RewriteExact

/-!
# The header walks agree

The flow plane and the IO workers read the same headers with different code. Where a
packet has a flow key, all of them find the same transport header and the same
addresses; and on no bytes at all does one of them read outside its slice.
-/
namespace NewProxy

open Outcome Packet

namespace Packet

variable {p : Bytes} {l : Layout}

/-- Bytes behind the packet, such as the padding of a short frame, do not move it. -/
theorem Layout.Of.append (h : l.Of p) (padding : Bytes) : l.Of (p ++ padding) := by
  have hle := h.offset_le
  have htot := h.total_le
  have hpos := h.length_pos
  have hbyte : ∀ i, i < l.total → Bytes.byteAt (p ++ padding) i = p.byteAt i :=
    fun i hi => Bytes.byteAt_append (by omega)
  have hword : ∀ i, i + 1 < l.total → Bytes.wordAt (p ++ padding) i = p.wordAt i :=
    fun i hi => Bytes.wordAt_congr (hbyte i (by omega)) (hbyte (i + 1) hi)
  have hlen : l.total ≤ (p ++ padding).length := by
    rw [List.length_append]
    omega
  refine ⟨?_, hle, hlen, fun hv => ?_, fun hv => ?_⟩
  · rw [hbyte 0 (by omega)]
    exact h.version
  · rw [hbyte 0 (by omega), hword 2 (by omega), hword 6 (by omega), hbyte 9 (by omega)]
    exact h.ipv4 hv
  · obtain ⟨h40, htotal, hwalk⟩ := h.ipv6 hv
    rw [hword 4 (by omega), hbyte 6 (by omega)]
    exact ⟨h40, htotal, ipv6TransportOffset_congr hlen le_rfl
      (fun i _ hi => hbyte i (by omega)) hwalk⟩

end Packet

namespace IoWorker

open Bytes (index_ne_panic word_ne_panic range_ne_panic length_of_getRange)

section Agreement

variable {p : Bytes} {l : Layout} {f : FlowKey}

/-- What an IO worker reads off a packet of the layout `l`. -/
def framed (p : Bytes) (l : Layout) : ParsedIpFrame where
  ipPacket := p.slice 0 l.total
  source := l.source p
  destination := l.destination p
  protocol := l.protocol
  transportOffset := l.offset
  fragmented := false

/-- A header cut out of a packet reads as the packet does. -/
theorem header_reads {a n : ℕ} (h : a + n ≤ p.length) :
    (∀ i < n, (p.slice a (a + n)).index i = (.ok (p.byteAt (a + i)) : Outcome DropReason UInt8)) ∧
    (∀ i, i + 1 < n →
      (p.slice a (a + n)).word i = (.ok (p.wordAt (a + i)) : Outcome DropReason UInt16)) ∧
    ∀ b c, b ≤ c → c ≤ n →
      (p.slice a (a + n)).range b c =
        (.ok (p.slice (a + b) (a + c)) : Outcome DropReason Bytes) := by
  have hlen : (p.slice a (a + n)).length = n := by
    rw [Bytes.length_slice h]
    omega
  refine ⟨fun i hi => ?_, fun i hi => ?_, fun b c hb hc => ?_⟩
  · rw [Bytes.index_ok (by omega), Bytes.byteAt_slice (by omega)]
  · rw [Bytes.word_ok (by omega), Bytes.wordAt_slice (by omega)]
  · rw [Bytes.range_ok hb (by omega)]
    simp only [Bytes.slice, List.take_drop, List.take_take, List.drop_drop,
      min_eq_left (show a + c ≤ a + n by omega)]

theorem parseIpv4Frame_eq (h : l.Of p) (hv : l.isV4 = true) :
    parseIpv4Frame p = .ok (framed p l) := by
  obtain ⟨h20, hoff, htotal, hfrag, hproto⟩ := h.ipv4 hv
  have hle := h.offset_le
  have htot := h.total_le
  obtain ⟨hbyte, hword, hrange⟩ := header_reads (p := p) (a := 0) (n := 20) (by omega)
  rw [Nat.zero_add] at hbyte hword hrange
  have hver := h.version
  rw [hv] at hver
  rw [parseIpv4Frame, Bytes.getRange_some (by omega) (by omega)]
  simp only [okOr, Outcome.bind_ok, hbyte 0 (by omega), hbyte 9 (by omega), hword 2 (by omega),
    hword 6 (by omega), hrange 12 16 (by omega) (by omega), hrange 16 20 (by omega) (by omega),
    Nat.zero_add, Bytes.octetsAt_slice (show 12 + 0 + 4 ≤ 16 by omega),
    Bytes.octetsAt_slice (show 16 + 0 + 4 ≤ 20 by omega), Bytes.range_ok (Nat.zero_le l.total) htot,
    Nat.add_zero, hver, htotal, hoff, hproto, hfrag, ensure, if_true, h20, hle, htot, and_self,
    framed, Layout.source, Layout.destination, hv]
  rfl

/-- The worker's walk also goes over fragment headers and stops at everything else;
where the walk of the flow plane reaches a transport header, both took the same way. -/
theorem ipv6TransportOffset_eq {total rounds off : ℕ} {next : UInt8} {fragmented : Bool}
    {proto : UInt8} {off' : ℕ}
    (h : Packet.ipv6TransportOffset p total rounds next off = .ok (proto, off')) :
    ipv6TransportOffset p total rounds next off fragmented = .ok (proto, off', fragmented) := by
  induction rounds generalizing next off with
  | zero => cases h
  | succ rounds ih =>
    rcases ipv6TransportOffset_succ.mp h with ⟨len, hlen, hp, hle, hw⟩ | ⟨hnone, hfrag, -, -, hr⟩
    · have hbyte := (header_reads hp).1
      have hwalk := ih hw
      rw [ipv6TransportOffset]
      simp only [Bytes.getRange_some (show off ≤ off + 2 by omega) hp, okOr, Outcome.bind_ok,
        hbyte 0 (by omega), hbyte 1 (by omega), Nat.add_zero]
      rw [extensionLen] at hlen
      split_ifs at hlen with h1 h2
      · cases hlen
        rw [if_pos h1, ensure, if_pos hle]
        exact hwalk
      · cases hlen
        rw [if_neg h1, if_neg (by rw [h2]; decide), if_pos h2, ensure, if_pos hle]
        exact hwalk
    · cases hr
      rw [extensionLen] at hnone
      split_ifs at hnone with h1 h2
      rw [ipv6TransportOffset, if_neg h1, if_neg hfrag, if_neg h2]

theorem parseIpv6Frame_eq (h : l.Of p) (hv : l.isV4 = false) :
    parseIpv6Frame p = .ok (framed p l) := by
  obtain ⟨h40, htotal, hwalk⟩ := h.ipv6 hv
  have hle := h.offset_le
  have htot := h.total_le
  obtain ⟨hbyte, hword, hrange⟩ := header_reads (p := p) (a := 0) (n := 40) (by omega)
  rw [Nat.zero_add] at hbyte hword hrange
  have hver := h.version
  rw [hv] at hver
  rw [parseIpv6Frame, Bytes.getRange_some (by omega) (by omega)]
  simp only [okOr, Outcome.bind_ok, hbyte 0 (by omega), hbyte 6 (by omega), hword 4 (by omega),
    hrange 8 24 (by omega) (by omega), hrange 24 40 (by omega) (by omega), Nat.zero_add,
    Bytes.octetsAt_slice (show 8 + 0 + 16 ≤ 24 by omega),
    Bytes.octetsAt_slice (show 24 + 0 + 16 ≤ 40 by omega),
    Bytes.range_ok (Nat.zero_le l.total) htot, Nat.add_zero, hver, htotal, ensure, if_true, htot,
    ipv6TransportOffset_eq hwalk, framed, Layout.source, Layout.destination, hv,
    Bool.false_eq_true, if_false]
  rfl

/-- The Ethernet header in front of a packet of the layout `l`. -/
structure Announces (l : Layout) (ethernet : Bytes) : Prop where
  length : ethernet.length = ethernetHeaderLen
  etherType : ethernet.wordAt 12 = if l.isV4 then ethPIpv4 else ethPIpv6

theorem parseIpFrame_eq {ethernet : Bytes} (h : l.Of p) (he : Announces l ethernet) :
    parseIpFrame (ethernet ++ p) = .ok (framed p l) := by
  have hlen := he.length
  have htype := he.etherType
  have hlength : (ethernet ++ p).length = ethernetHeaderLen + p.length := by
    rw [List.length_append, hlen]
  have hfront : Bytes.slice (ethernet ++ p) 0 ethernetHeaderLen = ethernet := by
    rw [Bytes.slice, List.drop_zero, ← hlen, List.take_left]
  have hback : Bytes.slice (ethernet ++ p) ethernetHeaderLen (ethernet ++ p).length = p := by
    rw [Bytes.slice, List.take_length, ← hlen, List.drop_left]
  rw [parseIpFrame, Bytes.getRange_some (Nat.zero_le _) (by omega), hfront,
    Bytes.range_ok (by omega) le_rfl, hback]
  simp only [okOr, Outcome.bind_ok,
    Bytes.word_ok (show 12 + 1 < ethernet.length by rw [hlen]; decide), htype]
  cases hv : l.isV4 with
  | true => exact parseIpv4Frame_eq h hv
  | false => exact parseIpv6Frame_eq h hv

end Agreement

section NoPanic

theorem ipv6TransportOffset_ne_panic (packet : Bytes) (totalLen rounds : ℕ) (nextHeader : UInt8)
    (offset : ℕ) (fragmented : Bool) :
    ipv6TransportOffset packet totalLen rounds nextHeader offset fragmented ≠ panic := by
  induction rounds generalizing nextHeader offset fragmented with
  | zero => exact fail_ne_panic _
  | succ rounds ih =>
    rw [ipv6TransportOffset]
    refine ite_ne_panic (fun _ => ?_) fun _ => ite_ne_panic (fun _ => ?_) fun _ =>
      ite_ne_panic (fun _ => ?_) fun _ => ok_ne_panic _
    all_goals
      refine bind_ne_panic okOr_ne_panic fun header hheader => ?_
      have hlen := length_of_getRange (okOr_eq_ok.mp hheader)
      refine bind_ne_panic (index_ne_panic (by omega)) fun _ _ => ?_
    · exact bind_ne_panic (index_ne_panic (by omega)) fun _ _ =>
        bind_ne_panic ensure_ne_panic fun _ _ => ih _ _ _
    · exact bind_ne_panic ensure_ne_panic fun _ _ => ih _ _ _
    · exact bind_ne_panic (index_ne_panic (by omega)) fun _ _ =>
        bind_ne_panic ensure_ne_panic fun _ _ => ih _ _ _

theorem udpPayload_ne_panic (parsed : ParsedIpFrame) : udpPayload parsed ≠ panic := by
  refine bind_ne_panic okOr_ne_panic fun udp _ => bind_ne_panic okOr_ne_panic fun header hh => ?_
  have hlen : header.length = 8 := length_of_getRange (okOr_eq_ok.mp hh)
  exact bind_ne_panic (word_ne_panic (by omega)) fun _ _ => okOr_ne_panic

/-- A computation on the dispatcher that never panics. -/
def NoPanic {ε α : Type} (x : Act FlowDispatcher ε α) : Prop :=
  Act.Triple (fun _ => True) x (fun _ _ => True) fun _ => True

namespace NoPanic

variable {ε α β : Type}

theorem pure (a : α) : NoPanic (pure a : Act FlowDispatcher ε α) := Act.Triple.pure fun _ h => h

theorem call_bind {o : Outcome ε α} {g : α → Act FlowDispatcher ε β} (ho : o ≠ panic)
    (hg : ∀ a, NoPanic (g a)) : NoPanic (Act.call o >>= g) :=
  Act.Triple.call_bind ho (fun _ h => h) fun a _ => hg a

theorem dispatch (workerId : ℕ) (message : FlowMessage) :
    NoPanic (IoWorker.dispatch workerId message) := fun _ _ => trivial

end NoPanic

end NoPanic

end IoWorker

section Walks

end Walks

end NewProxy
