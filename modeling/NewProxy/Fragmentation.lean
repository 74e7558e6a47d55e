import NewProxy.QuicCalls
import NewProxy.Reassembly

/-!
# Fragmentation of inner packets, there and back

The sender is any engine under any calls; what `send_inner` hands to its connection
is recorded as an `Emission`. The receiver sees these datagrams in any order, some of
them never and some again, with prunings in between. A datagram is named by the
emission it belongs to and its place there, so that equal packets stay apart.
-/
namespace NewProxy

theorem length_be64Bytes (w : UInt64) : (be64Bytes w).length = 8 := rfl

theorem foldl_eight (a b c d e f g h : UInt8) :
    [a, b, c, d, e, f, g, h].foldl (fun n x => n * 256 + x.toNat) 0 =
      ((((((a.toNat * 256 + b.toNat) * 256 + c.toNat) * 256 + d.toNat) * 256 + e.toNat) * 256 +
        f.toNat) * 256 + g.toNat) * 256 + h.toNat := by
  simp only [List.foldl_cons, List.foldl_nil, Nat.zero_mul, Nat.zero_add]

theorem toNat_shifted_byte (w : UInt64) {s : UInt64} {k : ℕ} (h : 2 ^ (s.toNat % 64) = k) :
    (w >>> s).toUInt8.toNat = w.toNat / k % 256 := by
  rw [UInt64.toNat_toUInt8, UInt64.toNat_shiftRight, Nat.shiftRight_eq_div_pow, h]

theorem be64_be64Bytes (w : UInt64) : be64 (be64Bytes w) = w := by
  have hw := w.toNat_lt
  -- a byte more of the number, from the top down
  have hstep : ∀ k, w.toNat / (k * 256) * 256 + w.toNat / k % 256 = w.toNat / k := by
    intro k
    rw [← Nat.div_div_eq_div_mul]
    omega
  have htop : w.toNat / 72057594037927936 % 256 = w.toNat / 72057594037927936 :=
    Nat.mod_eq_of_lt (by omega)
  rw [be64, be64Bytes, List.map_cons, List.map_cons, List.map_cons, List.map_cons, List.map_cons,
    List.map_cons, List.map_cons, List.map_cons, List.map_nil, foldl_eight,
    toNat_shifted_byte w (k := 72057594037927936) (by decide),
    toNat_shifted_byte w (k := 281474976710656) (by decide),
    toNat_shifted_byte w (k := 1099511627776) (by decide),
    toNat_shifted_byte w (k := 4294967296) (by decide),
    toNat_shifted_byte w (k := 16777216) (by decide),
    toNat_shifted_byte w (k := 65536) (by decide),
    toNat_shifted_byte w (k := 256) (by decide),
    toNat_shifted_byte w (k := 1) (by decide),
    htop, hstep 281474976710656, hstep 1099511627776, hstep 4294967296, hstep 16777216,
    hstep 65536, hstep 256, hstep 1, Nat.div_one, UInt64.ofNat_toNat]

namespace QuicEngine

open Quic Quic.InnerReassembly

section Sending

variable {hmac : Hmac} {engine : QuicEngine hmac}

/-- The datagrams the active connection has been handed. -/
def handed (engine : QuicEngine hmac) : List Bytes :=
  (engine.connection.map fun managed => managed.connection.datagrams).getD []

/-- One call of `send_inner`: its packet, the limit in force, the number a fragmented
packet is given, the datagrams handed over, and the result. -/
structure Emission where
  packet : Bytes
  maxDatagramSize : Option ℕ
  packetId : UInt64
  datagrams : List Bytes
  result : Except QuicEngineError Unit

def emission (answers : Answers) (packet : Bytes) (engine : QuicEngine hmac) : Emission where
  packet
  maxDatagramSize := answers.maxDatagramSize
  packetId := engine.nextInnerPacketId
  datagrams := (engine.emitInner answers packet).2.handed.drop engine.handed.length
  result := (engine.emitInner answers packet).1

/-- What an engine sends under a sequence of calls. -/
def emissions : List Call → QuicEngine hmac → List Emission
  | [], _ => []
  | .sendInner answers now packet :: rest, engine =>
    engine.emission answers packet :: emissions rest (engine.sendInner answers now packet).2
  | call :: rest, engine => emissions rest (call.apply engine)

/-- All the fragments of a packet. -/
def fragments (packetId : UInt64) (packet : Bytes) (size : ℕ) : List Bytes :=
  (fragmentOffsets packet.length size).map fun offset =>
    fragmentWire packetId packet offset (min packet.length (offset + size))

/-- Nothing went out. -/
structure Emission.Idle (e : Emission) : Prop where
  datagrams : e.datagrams = []
  result : e.result ≠ .ok ()

/-- The packet went out in one datagram. -/
structure Emission.Plain (e : Emission) : Prop where
  nonempty : e.packet ≠ []
  datagrams : e.datagrams = [innerPacket :: e.packet]
  limit : ∃ m, e.maxDatagramSize = some m ∧ e.packet.length < m

/-- The packet went out in fragments of `size` bytes; the last of them may have been
refused. -/
structure Emission.Split (e : Emission) (size : ℕ) : Prop where
  pos : 0 < size
  limit : e.maxDatagramSize = some (size + innerFragmentHeaderLen)
  size_lt : size < e.packet.length
  length_le : e.packet.length ≤ maxInnerPacketLen
  nonempty : e.datagrams ≠ []
  datagrams : e.datagrams <+: fragments e.packetId e.packet size
  whole : e.result = .ok () → e.datagrams = fragments e.packetId e.packet size

theorem length_fragmentOffsets (length size : ℕ) :
    (fragmentOffsets length size).length = (length + size - 1) / size := by
  simp [fragmentOffsets]

theorem fragments_ne_nil {packetId : UInt64} {packet : Bytes} {size : ℕ} (h : packet ≠ [])
    (hsize : 0 < size) : fragments packetId packet size ≠ [] := by
  have hlen : 0 < packet.length := List.length_pos_of_ne_nil h
  have hcount : 0 < (packet.length + size - 1) / size := Nat.div_pos (by omega) hsize
  intro hnil
  have hzero := congrArg List.length hnil
  rw [fragments, List.length_map, length_fragmentOffsets, List.length_nil] at hzero
  omega

theorem sendDatagram_some {accepts : Bool} {datagram : Bytes} {engine' : QuicEngine hmac}
    (h : engine.sendDatagram accepts datagram = some engine') :
    engine'.handed = engine.handed ++ [datagram] ∧ engine'.fixed = engine.fixed := by
  unfold sendDatagram at h
  cases hc : engine.connection with
  | none => simp [hc] at h
  | some managed =>
    rw [hc] at h
    dsimp only at h
    split_ifs at h
    cases h
    simp [handed, hc, fixed, setup]

theorem Emission.Plain.not_split {e : Emission} {size : ℕ} (h : e.Plain) : ¬ e.Split size := by
  intro hsplit
  have hpre := hsplit.datagrams
  rw [h.datagrams] at hpre
  obtain ⟨offset, -, hwire⟩ := List.mem_map.mp (hpre.subset (List.mem_singleton_self _))
  have hhead := congrArg List.head? hwire
  simp only [fragmentWire, List.cons_append, List.head?_cons] at hhead
  exact absurd hhead (by decide)

theorem sendFragments_spec (accepts : ℕ → Bool) (packetId : UInt64) (packet : Bytes) (size : ℕ)
    (index : ℕ) (offsets : List ℕ) (engine : QuicEngine hmac) :
    let wires := offsets.map fun offset =>
      fragmentWire packetId packet offset (min packet.length (offset + size))
    let r := engine.sendFragments accepts packetId packet size index offsets
    r.2.fixed = engine.fixed ∧ ∃ sent, sent <+: wires ∧ r.2.handed = engine.handed ++ sent ∧
      (r.1 = .ok () → sent = wires) := by
  -- along the offsets; the first refusal ends it
  induction offsets generalizing index engine with
  | nil => exact ⟨rfl, [], List.prefix_rfl, by simp [sendFragments], fun _ => rfl⟩
  | cons offset rest ih =>
    dsimp only
    rw [sendFragments]
    cases hsend : engine.sendDatagram (accepts index)
        (fragmentWire packetId packet offset (min packet.length (offset + size))) with
    | none => exact ⟨rfl, [], List.nil_prefix, by simp, fun h => by cases h⟩
    | some engine' =>
      obtain ⟨hhanded, hfixed⟩ := sendDatagram_some hsend
      obtain ⟨hf, sent, hpre, hh, hok⟩ := ih (index + 1) engine'
      refine ⟨hf.trans hfixed, _ :: sent, List.cons_prefix_cons.mpr ⟨rfl, hpre⟩, ?_, fun h => ?_⟩
      · rw [hh, hhanded, List.append_assoc]
        rfl
      · rw [hok h]
        rfl

/-- The ways a call of `send_inner` can end: with nothing sent, with one datagram, or
with fragments under a number of their own. -/
theorem emission_cases (answers : Answers) (packet : Bytes) (engine : QuicEngine hmac) :
    ((engine.emission answers packet).Idle ∧
        ((engine.emitInner answers packet).2.fixed = engine.fixed ∨
          (engine.emitInner answers packet).2.fixed =
            (engine.setup, engine.nextInnerPacketId + 1))) ∨
      ((engine.emission answers packet).Plain ∧
        (engine.emitInner answers packet).2.fixed = engine.fixed) ∨
      ((∃ size, (engine.emission answers packet).Split size) ∧
        (engine.emitInner answers packet).2.fixed =
          (engine.setup, engine.nextInnerPacketId + 1)) := by
  have hidle : ∀ error, engine.emitInner answers packet = (.error error, engine) →
      (engine.emission answers packet).Idle ∧
        ((engine.emitInner answers packet).2.fixed = engine.fixed ∨
          (engine.emitInner answers packet).2.fixed =
            (engine.setup, engine.nextInnerPacketId + 1)) := by
    intro error herror
    exact ⟨⟨by simp [emission, herror], by simp [emission, herror]⟩, .inl (by rw [herror])⟩
  by_cases hempty : packet = []
  · exact .inl (hidle .emptyInnerPacket (by rw [emitInner, if_pos hempty]))
  by_cases hauth : engine.isAuthenticated = false
  · exact .inl (hidle .notAuthenticated (by rw [emitInner, if_neg hempty, if_pos hauth]))
  cases hmax : answers.maxDatagramSize with
  | none =>
    exact .inl (hidle .notConnected (by rw [emitInner, if_neg hempty, if_neg hauth, hmax]))
  | some m =>
    by_cases hshort : packet.length < m
    · cases hsend : engine.sendDatagram (answers.accepts 0) (innerPacket :: packet) with
      | none =>
        exact .inl (hidle .datagramTooLarge (by
          simp only [emitInner, if_neg hempty, if_neg hauth, hmax, if_pos hshort, hsend]))
      | some engine' =>
        obtain ⟨hhanded, hfixed⟩ := sendDatagram_some hsend
        have hemit : engine.emitInner answers packet = (.ok (), engine') := by
          simp only [emitInner, if_neg hempty, if_neg hauth, hmax, if_pos hshort, hsend]
        refine .inr (.inl ⟨⟨hempty, ?_, m, hmax, hshort⟩, ?_⟩)
        · simp [emission, hemit, hhanded]
        · rw [hemit]
          exact hfixed
    · have hemit : engine.emitInner answers packet =
          engine.sendFragmentedInner answers.accepts packet m := by
        simp only [emitInner, if_neg hempty, if_neg hauth, hmax, if_neg hshort]
      by_cases hlimit : maxInnerPacketLen < packet.length ∨ m ≤ innerFragmentHeaderLen
      · exact .inl (hidle .datagramTooLarge (by rw [hemit, sendFragmentedInner, if_pos hlimit]))
      · have hsplit : engine.emitInner answers packet = _ :=
          hemit.trans (by rw [sendFragmentedInner, if_neg hlimit])
        rw [not_or, not_lt, not_le] at hlimit
        have h13 : 13 < m := hlimit.2
        have hheader : innerFragmentHeaderLen = 13 := rfl
        obtain ⟨hfixed, sent, hpre, hhanded, hok⟩ := sendFragments_spec answers.accepts
          engine.nextInnerPacketId packet (m - innerFragmentHeaderLen) 0
          (fragmentOffsets packet.length (m - innerFragmentHeaderLen))
          { engine with nextInnerPacketId := engine.nextInnerPacketId + 1 }
        have hsent : (engine.emission answers packet).datagrams = sent := by
          simp only [emission, hsplit]
          exact (congrArg (List.drop engine.handed.length) hhanded).trans List.drop_left
        have hfix : (engine.emitInner answers packet).2.fixed =
            (engine.setup, engine.nextInnerPacketId + 1) := by
          rw [hsplit]
          exact hfixed
        have hwhole : (engine.emission answers packet).result = .ok () → sent =
            fragments engine.nextInnerPacketId packet (m - innerFragmentHeaderLen) := by
          intro h
          refine hok ?_
          simpa only [emission, hsplit] using h
        have hsize : 0 < m - innerFragmentHeaderLen := by omega
        by_cases hnil : sent = []
        · refine .inl ⟨⟨hsent.trans hnil, fun h => ?_⟩, .inr hfix⟩
          exact fragments_ne_nil hempty hsize ((hwhole h).symm.trans hnil)
        · refine .inr (.inr ⟨⟨m - innerFragmentHeaderLen, hsize, ?_, ?_, hlimit.1, ?_, ?_,
            fun h => hsent.trans (hwhole h)⟩, hfix⟩)
          · simp only [emission, hmax]
            congr 1
            omega
          · simp only [emission]
            omega
          · rwa [hsent]
          · rw [hsent]
            exact hpre

theorem sendDatagram_accepted (h : engine.connection.isSome) (datagram : Bytes) :
    ∃ engine', engine.sendDatagram true datagram = some engine' ∧ engine'.connection.isSome := by
  unfold sendDatagram
  cases hc : engine.connection with
  | none => simp [hc] at h
  | some managed => simp

theorem sendFragments_accepted {accepts : ℕ → Bool} (haccepts : ∀ k, accepts k = true)
    (packetId : UInt64) (packet : Bytes) (size index : ℕ) (offsets : List ℕ)
    (h : engine.connection.isSome) :
    (engine.sendFragments accepts packetId packet size index offsets).1 = .ok () := by
  induction offsets generalizing index engine with
  | nil => rfl
  | cons offset rest ih =>
    obtain ⟨engine', hsend, h'⟩ := sendDatagram_accepted h
      (fragmentWire packetId packet offset (min packet.length (offset + size)))
    simp only [sendFragments, haccepts, hsend]
    exact ih (index + 1) h'

/-- An authenticated engine sends every packet of the admitted lengths whole, unless the
library refuses a datagram. -/
theorem emission_ok {answers : Answers} {packet : Bytes} {m : ℕ}
    (hauth : engine.isAuthenticated = true) (hne : packet ≠ [])
    (hlen : packet.length ≤ maxInnerPacketLen) (hmax : answers.maxDatagramSize = some m)
    (hm : innerFragmentHeaderLen < m) (haccepts : ∀ k, answers.accepts k = true) :
    (engine.emission answers packet).result = .ok () := by
  have hc : engine.connection.isSome := by
    cases hc : engine.connection with
    | none => simp [isAuthenticated, hc] at hauth
    | some managed => rfl
  have hlimit : ¬ (maxInnerPacketLen < packet.length ∨ m ≤ innerFragmentHeaderLen) := by
    rw [not_or, not_lt, not_le]
    exact ⟨hlen, hm⟩
  simp only [emission, emitInner, if_neg hne, hauth, Bool.true_eq_false, if_false, hmax, haccepts]
  split
  · obtain ⟨engine', hsend, -⟩ := sendDatagram_accepted hc (innerPacket :: packet)
    rw [hsend]
  · rw [sendFragmentedInner, if_neg hlimit]
    exact sendFragments_accepted haccepts _ _ _ _ _ hc

theorem nextInnerPacketId_sendInner (answers : Answers) (now : Instant) (packet : Bytes)
    (engine : QuicEngine hmac) : (engine.sendInner answers now packet).2.nextInnerPacketId =
      (engine.emitInner answers packet).2.nextInnerPacketId := by
  unfold sendInner
  split
  · next heq => rw [heq]
  · next engine' heq =>
    rw [heq]
    exact congrArg Prod.snd (fixed_drive answers.drive now engine')

/-- Only `send_inner` emits, and only it numbers packets. -/
theorem emissions_cons (call : Call) (rest : List Call) (engine : QuicEngine hmac) :
    (∃ answers packet, emissions (call :: rest) engine =
        engine.emission answers packet :: emissions rest (call.apply engine) ∧
      (call.apply engine).nextInnerPacketId =
        (engine.emitInner answers packet).2.nextInnerPacketId) ∨
    (emissions (call :: rest) engine = emissions rest (call.apply engine) ∧
      (call.apply engine).nextInnerPacketId = engine.nextInnerPacketId) := by
  cases call with
  | sendInner answers now packet =>
    exact .inl ⟨answers, packet, rfl, nextInnerPacketId_sendInner answers now packet engine⟩
  | handleOuter answers now packet =>
    exact .inr ⟨rfl, congrArg Prod.snd (fixed_handleOuter answers now packet engine)⟩
  | poll answers now => exact .inr ⟨rfl, congrArg Prod.snd (fixed_poll answers now engine)⟩
  | close => exact .inr ⟨rfl, rfl⟩
  | resolveCandidateReplacement published =>
    exact .inr ⟨rfl, congrArg Prod.snd (fixed_resolveCandidateReplacement published engine)⟩

/-- The number after a call is the same, or the next one if the packet was split. -/
theorem emitInner_number (answers : Answers) (packet : Bytes) (engine : QuicEngine hmac) :
    (engine.emitInner answers packet).2.nextInnerPacketId = engine.nextInnerPacketId + 1 ∨
      ((¬ ∃ size, (engine.emission answers packet).Split size) ∧
        (engine.emitInner answers packet).2.nextInnerPacketId = engine.nextInnerPacketId) := by
  rcases emission_cases answers packet engine with ⟨hidle, hfixed⟩ | ⟨hplain, hfixed⟩ | ⟨-, hfixed⟩
  · have hno : ¬ ∃ size, (engine.emission answers packet).Split size :=
      fun ⟨size, hsplit⟩ => hsplit.nonempty hidle.datagrams
    rcases hfixed with hfixed | hfixed
    · exact .inr ⟨hno, congrArg Prod.snd hfixed⟩
    · exact .inl (congrArg Prod.snd hfixed)
  · exact .inr ⟨fun ⟨size, hsplit⟩ => hplain.not_split hsplit, congrArg Prod.snd hfixed⟩
  · exact .inl (congrArg Prod.snd hfixed)

/-- The numbers are handed out in turn. -/
theorem packetId_emissions (calls : List Call) (engine : QuicEngine hmac) :
    ∀ e ∈ emissions calls engine, ∃ k < (emissions calls engine).length,
      e.packetId = engine.nextInnerPacketId + UInt64.ofNat k := by
  induction calls generalizing engine with
  | nil => simp [emissions]
  | cons call rest ih =>
    rcases emissions_cons call rest engine with ⟨answers, packet, heq, hnext⟩ | ⟨heq, hnext⟩
    · rw [heq]
      intro e he
      rcases List.mem_cons.mp he with rfl | he
      · exact ⟨0, by simp, by simp [emission]⟩
      · obtain ⟨k, hk, hid⟩ := ih (call.apply engine) e he
        rcases emitInner_number answers packet engine with hsucc | ⟨-, hsame⟩
        · refine ⟨k + 1, by simpa using hk, ?_⟩
          rw [hid, hnext, hsucc, UInt64.ofNat_add, UInt64.add_assoc, UInt64.add_comm 1]
          rfl
        · refine ⟨k, by simp only [List.length_cons]; omega, ?_⟩
          rw [hid, hnext, hsame]
    · rw [heq, ← hnext]
      exact ih (call.apply engine)

/-- No number is used again. -/
theorem packetId_pairwise (calls : List Call) (engine : QuicEngine hmac)
    (hcount : (emissions calls engine).length < 2 ^ 64) :
    (emissions calls engine).Pairwise fun e e' =>
      (∃ size, e.Split size) → e.packetId ≠ e'.packetId := by
  induction calls generalizing engine with
  | nil => exact List.Pairwise.nil
  | cons call rest ih =>
    rcases emissions_cons call rest engine with ⟨answers, packet, heq, hnext⟩ | ⟨heq, -⟩
    · rw [heq, List.length_cons] at hcount
      rw [heq]
      refine List.Pairwise.cons (fun e he hsplit => ?_) (ih (call.apply engine) (by omega))
      obtain ⟨k, hk, hid⟩ := packetId_emissions rest (call.apply engine) e he
      rcases emitInner_number answers packet engine with hsucc | ⟨hno, -⟩
      · rw [hid, hnext, hsucc]
        intro hsame
        have hzero : (1 : UInt64) + UInt64.ofNat k = 0 := by
          have hadd : engine.nextInnerPacketId + (1 + UInt64.ofNat k) =
              engine.nextInnerPacketId + 0 := by
            rw [← UInt64.add_assoc, UInt64.add_zero]
            exact hsame.symm
          exact (UInt64.add_right_inj _).mp hadd
        have hnat := congrArg UInt64.toNat hzero
        simp only [UInt64.toNat_add, UInt64.toNat_ofNat', UInt64.reduceToNat] at hnat
        omega
      · exact absurd hsplit hno
    · rw [heq] at hcount ⊢
      exact ih (call.apply engine) hcount

end Sending

section Wire

variable {packetId : UInt64} {packet : Bytes} {size : ℕ}

/-- A fragment without its kind byte. -/
def fragmentPayload (packetId : UInt64) (length offset : UInt16) (fragment : Bytes) : Bytes :=
  be64Bytes packetId ++ be16Bytes length ++ be16Bytes offset ++ fragment

theorem length_fragmentPayload (packetId : UInt64) (length offset : UInt16) (fragment : Bytes) :
    (fragmentPayload packetId length offset fragment).length = 12 + fragment.length := by
  simp only [fragmentPayload, List.length_append, length_be64Bytes, length_be16Bytes]

theorem fragmentPayload_fields (packetId : UInt64) (length offset : UInt16) (fragment : Bytes) :
    let payload := fragmentPayload packetId length offset fragment
    be64 (payload.slice 0 8) = packetId ∧ payload.wordAt 8 = length ∧ payload.wordAt 10 = offset ∧
      payload.slice 12 payload.length = fragment := by
  dsimp only
  refine ⟨be64_be64Bytes packetId, be16_div_mod length, be16_div_mod offset, ?_⟩
  rw [Bytes.slice, List.take_length]
  rfl

/-- There are as many fragments as it takes to cover the packet. -/
theorem lt_fragments_iff {j : ℕ} (hsize : 0 < size) :
    j < (fragments packetId packet size).length ↔ j * size < packet.length := by
  rw [fragments, List.length_map, length_fragmentOffsets, ← Nat.succ_le_iff,
    Nat.le_div_iff_mul_le hsize, Nat.succ_mul]
  omega

theorem getElem?_fragments {j : ℕ} {d : Bytes}
    (h : (fragments packetId packet size)[j]? = some d) (hsize : 0 < size) :
    j * size < packet.length ∧ d = innerFragment ::
      fragmentPayload packetId (UInt16.ofNat packet.length) (UInt16.ofNat (j * size))
        (packet.slice (j * size) (min packet.length (j * size + size))) := by
  have hj : j < (fragments packetId packet size).length := (List.getElem?_eq_some_iff.mp h).1
  refine ⟨(lt_fragments_iff hsize).mp hj, ?_⟩
  have hrange : j < (packet.length + size - 1) / size := by
    rwa [fragments, List.length_map, length_fragmentOffsets] at hj
  simp only [fragments, fragmentOffsets, List.getElem?_map, List.getElem?_range hrange,
    Option.map_some, Option.some_inj] at h
  exact h.symm

theorem length_slice_fragment {j : ℕ} (hj : j * size < packet.length) :
    j * size + (packet.slice (j * size) (min packet.length (j * size + size))).length =
      min packet.length (j * size + size) := by
  rw [Bytes.length_slice (Nat.min_le_left _ _)]
  omega

/-- No datagram is longer than the limit it was sent under. -/
theorem Emission.length_le {e : Emission} {d : Bytes}
    (h : e.Idle ∨ e.Plain ∨ ∃ size, e.Split size) (hd : d ∈ e.datagrams) :
    ∃ m, e.maxDatagramSize = some m ∧ d.length ≤ m := by
  rcases h with hidle | hplain | ⟨size, hsplit⟩
  · rw [hidle.datagrams] at hd
    cases hd
  · obtain ⟨m, hm, hlt⟩ := hplain.limit
    rw [hplain.datagrams, List.mem_singleton] at hd
    exact ⟨m, hm, by rw [hd, List.length_cons]; omega⟩
  · obtain ⟨j, hj⟩ := List.mem_iff_getElem?.mp (hsplit.datagrams.subset hd)
    obtain ⟨hlt, rfl⟩ := getElem?_fragments hj hsplit.pos
    have hlen := length_slice_fragment hlt
    refine ⟨_, hsplit.limit, ?_⟩
    rw [List.length_cons, length_fragmentPayload, innerFragmentHeaderLen]
    omega

end Wire

end QuicEngine

end NewProxy
